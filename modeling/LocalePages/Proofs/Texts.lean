import LocalePages.Text.Blank
import Mathlib.Data.List.Basic
import Mathlib.Data.List.TakeWhile

/-!
# Cuts, words and canonical forms

What the formats need to know of texts. A cut at the first occurrence of a character is the reverse of joining around it. The
words of a text hold no blank, cutting joined words gives the words back, and the canonical form of a text is empty exactly when
the text is blank all through. White space around a text is not looked at when it is trimmed.
-/

namespace LocalePages

/-- Whether a text could be a word: it is not empty and holds no blank. -/
def Text.Solid (t : Text) : Prop := t ≠ [] ∧ ∀ c ∈ t, isBlank c = false

namespace Text

/-- A text holds its parts. -/
theorem holds_iff {part t : Text} : holds part t = true ↔ part <:+: t := by
  induction t with
  | nil => rw [holds, List.isEmpty_iff, List.infix_nil]
  | cons c t ih => rw [holds, Bool.or_eq_true, List.isPrefixOf_iff_prefix, ih, List.infix_cons_iff]

/-! ## Cuts -/

/-- A text with a character after a part that does not hold it is cut right there. -/
theorem cutAt?_append {c : Char} {a : Text} (b : Text) (h : c ∉ a) : cutAt? c (a ++ c :: b) = some (a, b) := by
  induction a with
  | nil => simp [cutAt?]
  | cons d a ih =>
    simp only [List.mem_cons, not_or] at h
    simp [cutAt?, Ne.symm h.1, ih h.2]

/-- A text that does not hold a character is not cut at it. -/
theorem cutAt?_eq_none {c : Char} {t : Text} (h : c ∉ t) : cutAt? c t = none := by
  induction t with
  | nil => rfl
  | cons d t ih =>
    simp only [List.mem_cons, not_or] at h
    simp [cutAt?, Ne.symm h.1, ih h.2]

/-- The two parts of a cut, joined around the character, are the text. -/
theorem eq_append_of_cutAt? {c : Char} {t a b : Text} (h : cutAt? c t = some (a, b)) : t = a ++ c :: b := by
  induction t generalizing a b with
  | nil => simp [cutAt?] at h
  | cons d t ih =>
    simp only [cutAt?] at h
    split at h
    · rename_i hd
      cases h
      simp [hd]
    · obtain ⟨⟨a', b'⟩, hcut, hab⟩ := Option.map_eq_some_iff.1 h
      cases hab
      simp [ih hcut]

/-- A text is cut where the characters that are something else end. -/
theorem cutAt?_eq (c : Char) (t : Text) :
    cutAt? c t = if c ∈ t then some (t.takeWhile (· != c), (t.dropWhile (· != c)).tail) else none := by
  induction t with
  | nil => rfl
  | cons d t ih =>
    rw [cutAt?]
    by_cases hd : d = c
    · simp [hd]
    · rw [if_neg hd, ih]
      by_cases ht : c ∈ t <;> simp [ht, hd, Ne.symm hd]

/-- A text is cut at the first occurrence of a character. -/
theorem not_mem_of_cutAt? {c : Char} {t a b : Text} (h : cutAt? c t = some (a, b)) : c ∉ a := by
  rw [cutAt?_eq] at h
  split at h
  · cases h
    intro hc
    exact absurd (List.mem_takeWhile_imp hc) (by simp)
  · cases h

/-- A text with a character before a part that does not hold it is cut right there from its end. -/
theorem cutAtLast?_append {c : Char} (a : Text) {b : Text} (h : c ∉ b) : cutAtLast? c (a ++ c :: b) = some (a, b) := by
  have hreverse : (a ++ c :: b).reverse = b.reverse ++ c :: a.reverse := by simp
  rw [cutAtLast?, hreverse, cutAt?_append _ (by simpa using h)]
  simp

/-- A cut from the end is at the last occurrence of a character. -/
theorem of_cutAtLast? {c : Char} {t a b : Text} (h : cutAtLast? c t = some (a, b)) : t = a ++ c :: b ∧ c ∉ b := by
  obtain ⟨⟨after, before⟩, hcut, hparts⟩ := Option.map_eq_some_iff.1 h
  cases hparts
  refine ⟨?_, by simpa using not_mem_of_cutAt? hcut⟩
  rw [← List.reverse_reverse t, eq_append_of_cutAt? hcut]
  simp

/-! ## Joining -/

/-- Joining takes the first text and goes on with the others after a separator. -/
theorem joinWith_cons_cons (separator first second : Text) (rest : List Text) :
    joinWith separator (first :: second :: rest) = first ++ (separator ++ joinWith separator (second :: rest)) := by
  simp [joinWith, List.intercalate_cons_cons]

/-- A single text needs no separator. -/
theorem joinWith_singleton (separator t : Text) : joinWith separator [t] = t := List.intercalate_singleton

/-! ## Words -/

/-- What stands between two cuts holds nothing to cut at. -/
theorem eq_false_of_mem_splitOnP {cut : Char → Bool} {t run : Text} (h : run ∈ t.splitOnP cut) : ∀ c ∈ run, cut c = false := by
  induction t generalizing run with
  | nil =>
    rw [List.splitOnP_nil, List.mem_singleton] at h
    simp [h]
  | cons d t ih =>
    obtain ⟨first, others, hr⟩ := List.exists_cons_of_ne_nil (List.splitOnP_ne_nil cut t)
    rw [List.splitOnP_cons_eq_if_modifyHead] at h
    split at h
    · rcases List.mem_cons.1 h with rfl | h
      · simp
      · exact ih h
    · rename_i hd
      rw [hr, List.modifyHead_cons] at h
      rcases List.mem_cons.1 h with rfl | h
      · intro c hc
        rcases List.mem_cons.1 hc with rfl | hc
        · simpa using hd
        · exact ih (hr ▸ List.mem_cons_self) c hc
      · exact ih (hr ▸ List.mem_cons_of_mem _ h)

/-- A word of a text is solid. -/
theorem solid_of_mem_words {t w : Text} (h : w ∈ words t) : w.Solid := by
  obtain ⟨hrun, hne⟩ := List.mem_filter.1 h
  exact ⟨by simpa using hne, eq_false_of_mem_splitOnP hrun⟩

/-- A text without words is blank all through, and the other way round. -/
theorem words_eq_nil_iff {t : Text} : words t = [] ↔ ∀ c ∈ t, isBlank c = true := by
  induction t with
  | nil => simp [words]
  | cons c t ih =>
    simp only [words, List.splitOnP_cons_eq_if_modifyHead] at ih ⊢
    by_cases hc : isBlank c = true
    · simpa [hc] using ih
    · obtain ⟨run, runs, hr⟩ := List.exists_cons_of_ne_nil (List.splitOnP_ne_nil isBlank t)
      simp [hc, hr]

/-- A solid text is its only word. -/
theorem words_of_solid {w : Text} (h : w.Solid) : words w = [w] := by
  rw [words, List.splitOnP_eq_singleton h.2]
  simp [h.1]

/-- The words around a blank are the words before it and the words after it. -/
theorem words_append_blank (s t : Text) {c : Char} (hc : isBlank c = true) :
    words (s ++ c :: t) = words s ++ words t := by
  simp only [words, List.splitOnP_append_cons s t hc, List.filter_append]

/-- Cutting solid texts that were joined by spaces gives them back. -/
theorem words_joinWith {ws : List Text} (h : ∀ w ∈ ws, w.Solid) : words (joinWith " " ws) = ws := by
  induction ws with
  | nil => rfl
  | cons w ws ih =>
    have hw : words w = [w] := words_of_solid (h w List.mem_cons_self)
    have hrest := ih fun v hv => h v (List.mem_cons_of_mem _ hv)
    cases ws with
    | nil => rw [joinWith_singleton, hw]
    | cons v ws =>
      have hspace : words (w ++ ' ' :: joinWith " " (v :: ws)) = words w ++ words (joinWith " " (v :: ws)) :=
        words_append_blank _ _ (by decide)
      rw [joinWith_cons_cons]
      exact hspace.trans (by rw [hw, hrest, List.singleton_append])

/-- Joining texts is empty only for no texts, when none of them is empty. -/
theorem joinWith_eq_nil_iff {ws : List Text} (h : ∀ w ∈ ws, w.Solid) : joinWith " " ws = [] ↔ ws = [] := by
  constructor
  · intro hj
    rw [← words_joinWith h, hj]
    rfl
  · rintro rfl
    rfl

/-- The canonical form of a text is empty exactly when the text is blank all through. -/
theorem canonical_eq_nil_iff {t : Text} : canonical t = [] ↔ ∀ c ∈ t, isBlank c = true := by
  rw [← words_eq_nil_iff]
  exact joinWith_eq_nil_iff fun _ hw => solid_of_mem_words hw

/-- The canonical form of a text has the words of the text. -/
theorem words_canonical (t : Text) : words (canonical t) = words t := words_joinWith fun _ => solid_of_mem_words

/-- A canonical form is its own. -/
theorem canonical_canonical (t : Text) : canonical (canonical t) = canonical t := congrArg (joinWith " ") (words_canonical t)

/-- The canonical form of a text that has a word is not empty. -/
theorem canonical_ne_nil_of_mem_words {t w : Text} (h : w ∈ words t) : canonical t ≠ [] := by
  intro hc
  rw [canonical_eq_nil_iff, ← words_eq_nil_iff] at hc
  simp [hc] at h

/-- The only blank in a canonical form is the space. -/
theorem eq_space_of_mem_canonical {t : Text} {c : Char} (h : c ∈ canonical t) (hc : isBlank c = true) : c = ' ' := by
  have hjoined : ∀ {ws : List Text}, (∀ w ∈ ws, w.Solid) → c ∈ joinWith " " ws → c = ' ' := by
    intro ws hws hm
    induction ws with
    | nil => simp [joinWith] at hm
    | cons w ws ih =>
      have hw : c ∉ w := fun hcw => by simp [(hws w List.mem_cons_self).2 c hcw] at hc
      cases ws with
      | nil =>
        rw [joinWith_singleton] at hm
        exact absurd hm hw
      | cons v ws =>
        rw [joinWith_cons_cons, List.mem_append, List.mem_append] at hm
        rcases hm with hm | hm | hm
        · exact absurd hm hw
        · exact List.mem_singleton.1 hm
        · exact ih (fun u hu => hws u (List.mem_cons_of_mem _ hu)) hm
  exact hjoined (fun _ hw => solid_of_mem_words hw) h

/-! ## Known ends -/

/-- What follows a known start is what is left when the start is taken off. -/
theorem dropHead?_append (head t : Text) : dropHead? head (head ++ t) = some t := by
  unfold dropHead?
  induction head with
  | nil => rfl
  | cons c head ih => rw [List.cons_append, List.isPrefixOf?.eq_3, if_pos (beq_self_eq_true c), ih]

/-- What stands before a known end is what is left when the end is taken off. -/
theorem dropTail?_append (t tail : Text) : dropTail? tail (t ++ tail) = some t := by
  have hreverse := dropHead?_append tail.reverse t.reverse
  rw [dropHead?] at hreverse
  rw [dropTail?, List.reverse_append, hreverse, Option.map_some, List.reverse_reverse]

/-! ## Letters and digits -/

/-- What holds of the letters and digits of ASCII holds of all of them: there are no others. -/
theorem of_isAlphanum {p : Char → Prop} (h : ∀ n : Fin 128, (Char.ofNat n).isAlphanum = true → p (Char.ofNat n)) {c : Char}
    (hc : c.isAlphanum = true) : p c := by
  have hbound : c.toNat < 128 := by
    delta Char.isAlphanum Char.isAlpha Char.isUpper Char.isLower Char.isDigit at hc
    simp only [Bool.or_eq_true, Bool.and_eq_true, decide_eq_true_eq, ge_iff_le, UInt32.le_iff_toNat_le] at hc
    have hval : c.toNat = c.val.toNat := rfl
    have hZ : 'Z'.val.toNat = 90 := rfl
    have hz : 'z'.val.toNat = 122 := rfl
    have h9 : '9'.val.toNat = 57 := rfl
    omega
  have hn := h ⟨c.toNat, hbound⟩
  rw [Char.ofNat_toNat] at hn
  exact hn hc

/-- No letter and no digit is white space. -/
theorem isWide_of_isAlphanum {c : Char} (h : c.isAlphanum = true) : isWide c = false :=
  of_isAlphanum (p := fun c => isWide c = false) (by decide +kernel) h

/-! ## Trimming -/

/-- What belongs to a class at the end of a text goes. -/
theorem dropEndWhile_append {p : Char → Bool} (t : Text) {after : Text} (h : ∀ c ∈ after, p c = true) :
    dropEndWhile p (t ++ after) = dropEndWhile p t := by
  rw [dropEndWhile, List.reverse_append, List.dropWhile_append_of_pos (by simpa using h), dropEndWhile]

/-- What stands before a character outside a class stays. -/
theorem dropEndWhile_append_cons {p : Char → Bool} (before t : Text) {c : Char} (h : p c = false) :
    dropEndWhile p (before ++ c :: t) = before ++ c :: dropEndWhile p t := by
  simp only [dropEndWhile, List.reverse_append, List.reverse_cons, List.append_assoc, List.dropWhile_append]
  split
  · rename_i hall
    rw [List.isEmpty_iff] at hall
    simp [hall, h]
  · simp

/-- White space after a text is not looked at. -/
theorem trim_append (t : Text) {after : Text} (h : ∀ c ∈ after, isWide c = true) : trim (t ++ after) = trim t := by
  unfold trim trimWhile
  rw [List.dropWhile_append]
  split
  · rename_i hall
    rw [List.isEmpty_iff] at hall
    have hafter : after.dropWhile isWide = [] := List.dropWhile_eq_nil_iff.2 h
    rw [hall, hafter]
  · exact dropEndWhile_append _ h

/-- White space before a text is not looked at. -/
theorem trim_prepend {before : Text} (t : Text) (h : ∀ c ∈ before, isWide c = true) : trim (before ++ t) = trim t := by
  unfold trim trimWhile
  rw [List.dropWhile_append_of_pos h]

/-- A text that starts outside white space is trimmed at its end only. -/
theorem trim_cons {c : Char} (t : Text) (h : isWide c = false) : trim (c :: t) = c :: dropEndWhile isWide t := by
  unfold trim trimWhile
  rw [List.dropWhile_cons_of_neg (by simp [h])]
  exact dropEndWhile_append_cons [] t h

/-- What goes at the end of a text belongs to the class. -/
theorem exists_dropEndWhile (p : Char → Bool) (t : Text) : ∃ after, (∀ c ∈ after, p c = true) ∧ t = dropEndWhile p t ++ after := by
  refine ⟨(t.reverse.takeWhile p).reverse, fun c hc => List.mem_takeWhile_imp (List.mem_reverse.1 hc), ?_⟩
  rw [dropEndWhile, ← List.reverse_append, List.takeWhile_append_dropWhile, List.reverse_reverse]

/-- What is left of a trimmed text was there before. -/
theorem mem_of_mem_trim {t : Text} {c : Char} (h : c ∈ trim t) : c ∈ t := by
  have hreverse := (List.dropWhile_sublist isWide).mem (List.mem_reverse.1 h)
  exact (List.dropWhile_sublist isWide).mem (List.mem_reverse.1 hreverse)

/-- White space is trimmed to nothing. -/
theorem trim_eq_nil {t : Text} (h : ∀ c ∈ t, isWide c = true) : trim t = [] := trim_append [] h

end Text

end LocalePages
