import LocalePages.Proofs.WrittenTokens

/-!
# Text up to an end tag

In some elements everything is text up to the end tag of the element (`Reading`). Such text is read back as it was written when the
first such end tag in it is the one that was written after it (`Reading.keeps`), and then again whatever comes after that end tag
(`Token.next_rawText`, `Token.next_rawEnd`).
-/

namespace LocalePages

open Token

/-- Text as it is written inside an element that is read in some way. -/
def Reading.write (reading : Reading) (t : Text) : Text :=
  match reading with
  | .withReferences _ => t.flatMap escapedTextChar
  | _ => t

/-- Whether text that is read in some way goes up to the end tag of its element, and not to one before it. -/
def Reading.keeps (reading : Reading) (tag t : Text) : Bool :=
  match reading with
  | .withReferences element => element == tag
  | .raw element => element == tag && rawRun tag (t ++ endTagText tag) == (t, endTagText tag)
  | .script => tag == "script" && scriptRun .plain (t ++ endTagText tag) == (t, endTagText tag)
  | _ => false

namespace Token

variable {t tag rest : Text} {fuel : Nat} {sections : Bool} {reading : Reading}

/-- An end tag closes its element. -/
theorem closes_endTag (tag rest : Text) : closes tag ('/' :: (tag ++ '>' :: rest)) = true := by
  rw [closes, List.take_left, List.drop_left]
  simp [Text.sameIgnoringCase, endsName]

/-- Whether an element is closed does not hang on what comes after its name and the character after it. -/
theorem closes_append (h : tag.length + 2 ≤ t.length) (rest : Text) : closes tag (t ++ rest) = closes tag t := by
  cases t with
  | nil => cases h
  | cons c t =>
    rw [List.length_cons] at h
    have htake : (t ++ rest).take tag.length = t.take tag.length := List.take_append_of_le_length (by omega)
    have hdrop : (t ++ rest).drop tag.length = t.drop tag.length ++ rest := List.drop_append_of_le_length (by omega)
    have hmore : t.drop tag.length ≠ [] := List.ne_nil_of_length_pos (by rw [List.length_drop]; omega)
    obtain ⟨d, u, hu⟩ := List.exists_cons_of_ne_nil hmore
    by_cases hslash : c = '/'
    · rw [hslash, List.cons_append, closes, closes, htake, hdrop, hu]
      rfl
    · have hopen : ∀ u : Text, closes tag (c :: u) = false := by
        intro u
        unfold closes
        split
        · exact absurd (List.cons.inj ‹c :: u = '/' :: _›).1 hslash
        · rfl
      rw [List.cons_append, hopen, hopen]

/-- The end tag of an element is long enough to be told. -/
theorem length_endTagText (tag : Text) : (endTagText tag).length = tag.length + 3 := by
  simp [endTagText]

/-- Text without references ends right before an end tag. -/
theorem rawRun_endTagText (tag rest : Text) : rawRun tag (endTagText tag ++ rest) = ([], endTagText tag ++ rest) := by
  have hcloses := closes_endTag tag rest
  have htext : endTagText tag ++ rest = '<' :: '/' :: (tag ++ '>' :: rest) := by simp [endTagText]
  rw [htext, rawRun, if_pos (by rw [hcloses]; rfl)]

/-- A script ends right before an end tag, where it may end. -/
theorem scriptRun_endTagText {s : ScriptState} (h : s.mayEnd = true) (rest : Text) :
    scriptRun s (endTagText "script" ++ rest) = ([], endTagText "script" ++ rest) := by
  have hcloses := closes_endTag "script" rest
  have htext : endTagText "script" ++ rest = '<' :: '/' :: ("script".toList ++ '>' :: rest) := rfl
  rw [htext, scriptRun, if_pos (by rw [hcloses, h]; rfl)]

/-- Text without references ends in the same place whatever comes after its end tag. -/
theorem rawRun_append (h : rawRun tag (t ++ endTagText tag) = (t, endTagText tag)) (rest : Text) :
    rawRun tag (t ++ (endTagText tag ++ rest)) = (t, endTagText tag ++ rest) := by
  induction t with
  | nil => exact rawRun_endTagText tag rest
  | cons c t ih =>
    rw [List.cons_append, rawRun] at h ⊢
    have hsame : closes tag (t ++ (endTagText tag ++ rest)) = closes tag (t ++ endTagText tag) := by
      rw [← List.append_assoc]
      refine closes_append ?_ rest
      rw [List.length_append, length_endTagText]
      omega
    rw [hsame]
    split at h
    · cases h
    · rename_i hopen
      have hrun : rawRun tag (t ++ endTagText tag) = (t, endTagText tag) := by
        simp only [Prod.mk.injEq, List.cons.injEq, true_and] at h
        exact Prod.ext h.1 h.2
      rw [if_neg hopen, ih hrun]

/-- A script ends in the same place whatever comes after its end tag. -/
theorem scriptRun_append {s : ScriptState}
    (h : scriptRun s (t ++ endTagText "script") = (t, endTagText "script")) (rest : Text) :
    scriptRun s (t ++ (endTagText "script" ++ rest)) = (t, endTagText "script" ++ rest) := by
  induction t generalizing s with
  | nil =>
    have hmay : s.mayEnd = true := by
      by_contra hmay
      rw [List.nil_append, endTagText, scriptRun, if_neg (by simp [hmay])] at h
      cases h
    exact scriptRun_endTagText hmay rest
  | cons c t ih =>
    rw [List.cons_append, scriptRun] at h ⊢
    have hsame : closes "script" (t ++ (endTagText "script" ++ rest)) = closes "script" (t ++ endTagText "script") := by
      rw [← List.append_assoc]
      refine closes_append ?_ rest
      rw [List.length_append, length_endTagText]
      omega
    rw [hsame]
    split at h
    · cases h
    · rename_i hopen
      have hrun : scriptRun (s.next c) (t ++ endTagText "script") = (t, endTagText "script") := by
        simp only [Prod.mk.injEq, List.cons.injEq, true_and] at h
        exact Prod.ext h.1 h.2
      rw [if_neg hopen, ih hrun]

/-- Escaped text goes up to an end tag. -/
theorem rawRun_escaped (tag t rest : Text) :
    rawRun tag (t.flatMap escapedTextChar ++ (endTagText tag ++ rest)) = (t.flatMap escapedTextChar, endTagText tag ++ rest) := by
  have hchars : ∀ c ∈ t.flatMap escapedTextChar, c ≠ '<' := fun c hc => (of_mem_escaped hc).1
  generalize t.flatMap escapedTextChar = run at hchars
  induction run with
  | nil => exact rawRun_endTagText tag rest
  | cons c run ih =>
    rw [List.cons_append, rawRun, if_neg (by simp [hchars c List.mem_cons_self]), ih fun d hd => hchars d (List.mem_cons_of_mem _ hd)]

/-- What comes before an end tag is a stretch of text. -/
theorem rawOr_of_ne_nil {references : Bool} (h : t ≠ []) :
    rawOr fuel reading references (t, rest) = ⟨some (stretch references t), reading, rest⟩ := by
  cases t with
  | nil => exact absurd rfl h
  | cons c t => rfl

/-- Text without references says what it is. -/
theorem stretch_plain (h : t.isPlain = true) : stretch false t = .characters t false := by
  rw [stretch, if_neg Bool.false_ne_true, plain_eq_self h]

/-- The text of an element is read up to the end tag. -/
theorem next_rawText (h : reading.keeps tag t = true) (hplain : t.isPlain = true) (hne : t ≠ []) (rest : Text) :
    next fuel reading sections (reading.write t ++ (endTagText tag ++ rest)) =
      ⟨some (.characters t false), reading, endTagText tag ++ rest⟩ := by
  cases reading with
  | withReferences element =>
    obtain rfl := beq_iff_eq.1 h
    rw [next, Reading.write, rawRun_escaped, rawOr_of_ne_nil (escaped_ne_nil hne), stretch_escaped hplain]
  | raw element =>
    rw [Reading.keeps, Bool.and_eq_true, beq_iff_eq, beq_iff_eq] at h
    obtain ⟨rfl, hrun⟩ := h
    rw [show Reading.write (.raw element) t = t from rfl, next, rawRun_append hrun, rawOr_of_ne_nil hne, stretch_plain hplain]
  | script =>
    rw [Reading.keeps, Bool.and_eq_true, beq_iff_eq, beq_iff_eq] at h
    obtain ⟨rfl, hrun⟩ := h
    rw [show Reading.write .script t = t from rfl, next, scriptRun_append hrun, rawOr_of_ne_nil hne, stretch_plain hplain]
  | _ => cases h

theorem withoutByteOrderMark_eq_self (h : t.head? ≠ some '\ufeff') : withoutByteOrderMark t = t := by
  unfold withoutByteOrderMark
  split
  · exact absurd rfl h
  · rfl

/-- At the end tag of an element its text is over. -/
theorem next_rawEnd (h : reading.keeps tag t = true) (hname : tag.isTagName = true) (hrest : rest.head? ≠ some '\ufeff')
    (hfuel : (endTagText tag ++ rest).length ≤ fuel) :
    next fuel reading sections (endTagText tag ++ rest) = ⟨some (.close tag), .ordinary, rest⟩ := by
  have hend {references : Bool} :
      rawOr fuel reading references ([], endTagText tag ++ rest) = ⟨some (.close tag), .ordinary, rest⟩ := by
    have hdrop : (endTagText tag ++ rest).drop 2 = tag ++ '>' :: rest := by simp [endTagText]
    have hstep : rawOr fuel reading references ([], endTagText tag ++ rest) = endTag fuel ((endTagText tag ++ rest).drop 2) := rfl
    rw [hstep, hdrop, endTag_written hname (by simp [endTagText] at hfuel ⊢; omega)]
  cases reading with
  | withReferences element =>
    obtain rfl := beq_iff_eq.1 h
    rw [next, rawRun_endTagText, hend]
  | raw element =>
    rw [Reading.keeps, Bool.and_eq_true, beq_iff_eq, beq_iff_eq] at h
    obtain ⟨rfl, -⟩ := h
    rw [next, rawRun_endTagText, hend]
  | script =>
    rw [Reading.keeps, Bool.and_eq_true, beq_iff_eq, beq_iff_eq] at h
    obtain ⟨rfl, -⟩ := h
    rw [next, scriptRun_endTagText rfl, hend]
    dsimp only
    rw [withoutByteOrderMark_eq_self hrest]
  | _ => cases h

end Token

end LocalePages
