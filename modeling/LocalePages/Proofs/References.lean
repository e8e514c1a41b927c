import LocalePages.Markup.Reference
import LocalePages.Markup.Serialize
import Mathlib.Data.List.Basic

/-!
# References that are written are read back

Text is written with references for the few characters that could not be read back as themselves, and reading it gives the text
again (`Reference.resolve_escaped`). A reference is read by a search among all names, but a semicolon ends every search: what
comes after it changes nothing (`Reference.longest?_append`, `Reference.reach_append`), so that it is enough to look at the names
that are written by themselves (`Reference.read_written`).
-/

namespace LocalePages

namespace Reference

/-! ## The letters of names -/

/-- The characters that the bytes of a name stand for one by one. -/
def spell (s : String) : Text := s.toByteArray.data.toList.map fun b => Char.ofNat b.toNat

/-- A character whose bytes are all small is the one that its byte stands for. -/
theorem map_utf8EncodeChar {c : Char} (h : ∀ b ∈ String.utf8EncodeChar c, b < 128) :
    (String.utf8EncodeChar c).map (fun b => Char.ofNat b.toNat) = [c] := by
  unfold String.utf8EncodeChar at h ⊢
  dsimp only at h ⊢
  split
  · rename_i hsmall
    have hbyte : (UInt8.ofNat c.val.toNat).toNat = c.toNat := by
      rw [UInt8.toNat_ofNat']
      exact Nat.mod_eq_of_lt (by omega)
    rw [List.map_singleton, hbyte, Char.ofNat_toNat]
  · -- a character of more than one byte starts with a great one
    rename_i hgreat
    rw [if_neg hgreat] at h
    split at h <;> [skip; split at h] <;>
    · have hfirst := h _ List.mem_cons_self
      rw [UInt8.lt_iff_toNat_lt, UInt8.toNat_ofNat'] at hfirst
      have hbound : (128 : UInt8).toNat = 128 := rfl
      omega

/-- A text whose bytes are all small is spelled by them. -/
theorem toList_eq_spell {s : String} (h : ∀ b ∈ s.toByteArray.data.toList, b < 128) : s.toList = spell s := by
  have hbytes : s.toByteArray.data.toList = s.toList.flatMap String.utf8EncodeChar := by
    conv => lhs; rw [← String.ofList_toList (s := s)]
    rw [String.toByteArray_ofList, List.utf8Encode, List.data_toByteArray]
  rw [hbytes] at h
  rw [spell, hbytes]
  have hspell : ∀ t : Text, (∀ b ∈ t.flatMap String.utf8EncodeChar, b < 128) →
      t = (t.flatMap String.utf8EncodeChar).map fun b => Char.ofNat b.toNat := by
    intro t
    induction t with
    | nil => exact fun _ => rfl
    | cons c t ih =>
      intro h
      rw [List.flatMap_cons] at h ⊢
      rw [List.map_append, map_utf8EncodeChar fun b hb => h b (List.mem_append_left _ hb),
        ← ih fun b hb => h b (List.mem_append_right _ hb)]
      rfl
  exact hspell s.toList h

/-- The tables of names, one after the other. -/
def table : List (String × List Nat) :=
  [Entity.capitalNames, Entity.namesAToC, Entity.namesDToG, Entity.namesHToL, Entity.namesMToQ, Entity.namesRToS,
    Entity.namesTToZ].flatten

/-- The names by the bytes of their letters, which is how they are quick to compute with. -/
def spelled : List Name :=
  table.map fun (name, value) => ⟨spell name, value.map Char.ofNat, Entity.lenientNames.contains name⟩

/-- What is found among names that start with a letter: the characters that the longest one stands for, how many characters write it,
and how many could still become a name. -/
def searched (names : List Name) (t : Text) : Option (Text × Nat × Nat) × Nat :=
  let found := names.filter (·.name.head? == t.head?)
  ((found.foldl (fun found n =>
    match n.length? t, found with
    | some k, some (_, k') => if k' < k then some (n, k) else found
    | some k, none => some (n, k)
    | none, _ => found) none).map fun (n, k) => (n.value, n.name.length, k),
    found.foldl (fun k n => max k (n.agreement t)) 0)

/-- The names of the characters that are written by references, and what they stand for. -/
def writtenNames : List (Text × Text) := [("amp", "&"), ("nbsp", ['\u00a0']), ("lt", "<"), ("gt", ">"), ("quot", "\"")]

/-- What computing with all names tells: they have small bytes and no semicolon, and what is found for the written ones. -/
theorem table_facts :
    (table.all fun (name, _) => name.toByteArray.data.toList.all (· < 128) && !(spell name).contains ';') = true ∧
      (writtenNames.all fun (name, value) =>
        searched spelled (name ++ [';']) == (some (value, name.length, name.length + 1), name.length + 1)) = true := by
  decide +kernel

/-- The names are spelled by their bytes. -/
theorem names_eq_spelled : names = spelled := by
  refine List.map_congr_left fun (name, value) hin => ?_
  have hsmall := List.all_eq_true.1 table_facts.1 _ hin
  rw [Bool.and_eq_true, List.all_eq_true] at hsmall
  have hname : name.toList = spell name := toList_eq_spell fun b hb => by simpa using hsmall.1 b hb
  exact congrArg (fun letters => Name.mk letters (value.map Char.ofNat) (Entity.lenientNames.contains name)) hname

/-- No name has a semicolon in it. -/
theorem semicolon_not_mem {n : Name} (h : n ∈ names) : ';' ∉ n.name := by
  rw [names_eq_spelled] at h
  obtain ⟨⟨name, value⟩, hin, rfl⟩ := List.mem_map.1 h
  have hfacts := List.all_eq_true.1 table_facts.1 _ hin
  rw [Bool.and_eq_true] at hfacts
  simpa using hfacts.2

/-- The names that a text could start with are those with its first letter. -/
theorem candidates_cons (c : Char) (t : Text) : candidates (c :: t) = names.filter (·.name.head? == some c) := by
  have hlookup : ∀ letters : List Char, (letters.map fun c => (c, names.filter (·.name.head? == some c))).lookup c =
      if c ∈ letters then some (names.filter (·.name.head? == some c)) else none := by
    intro letters
    induction letters with
    | nil => rfl
    | cons d letters ih =>
      rw [List.map_cons, List.lookup_cons, ih]
      by_cases hc : c = d
      · subst hc
        simp
      · simp [hc, beq_false_of_ne hc]
  rw [candidates, List.head?_cons, Option.bind_some, byLetter, hlookup]
  split
  · rfl
  · rename_i hnone
    rw [List.mem_eraseDups, List.mem_filterMap] at hnone
    refine (List.filter_eq_nil_iff.2 fun n hn hc => hnone ⟨n, hn, beq_iff_eq.1 hc⟩).symm

/-! ## Searches end at a semicolon -/

variable {n : Name}

/-- What starts a text before a semicolon does not depend on what comes after it. -/
theorem isPrefixOf?_append {name : Text} (h : ';' ∉ name) (w rest : Text) :
    name.isPrefixOf? (w ++ ';' :: rest) = (name.isPrefixOf? w).map (· ++ ';' :: rest) := by
  induction name generalizing w with
  | nil => cases w <;> rfl
  | cons c name ih =>
    obtain ⟨hc, hname⟩ := not_or.1 (mt List.mem_cons.2 h)
    cases w with
    | nil => simp [List.isPrefixOf?, Ne.symm hc]
    | cons d w =>
      rw [List.cons_append, List.isPrefixOf?, List.isPrefixOf?, ih hname]
      split <;> rfl

/-- How many characters write a name does not depend on what comes after the semicolon. -/
theorem Name.length?_append (h : ';' ∉ n.name) (w rest : Text) : n.length? (w ++ ';' :: rest) = n.length? (w ++ [';']) := by
  rw [Name.length?, Name.length?, isPrefixOf?_append h, isPrefixOf?_append h]
  cases n.name.isPrefixOf? w with
  | none => rfl
  | some after =>
    cases after with
    | nil => rfl
    | cons c after =>
      by_cases hc : c = ';'
      · subst hc
        rfl
      · simp [hc]

/-- How far two texts agree is not told by a semicolon that the first one has not. -/
theorem common_append {name : Text} (h : ';' ∉ name) (w rest : Text) : common name (w ++ ';' :: rest) = common name w := by
  induction name generalizing w with
  | nil => cases w <;> rfl
  | cons c name ih =>
    obtain ⟨hc, hname⟩ := not_or.1 (mt List.mem_cons.2 h)
    cases w with
    | nil => simp [common, Ne.symm hc]
    | cons d w => rw [List.cons_append, common, common, ih hname]

theorem common_le (s t : Text) : common s t ≤ t.length := by
  induction s generalizing t with
  | nil => simp [common]
  | cons c s ih =>
    cases t with
    | nil => simp [common]
    | cons d t =>
      rw [common]
      split
      · exact Nat.succ_le_succ (ih t)
      · exact Nat.zero_le _

/-- How many characters agree with a name does not depend on what comes after the semicolon. -/
theorem Name.agreement_append (h : ';' ∉ n.name) (w rest : Text) :
    n.agreement (w ++ ';' :: rest) = n.agreement (w ++ [';']) := by
  have hdrop : ∀ rest, (w ++ ';' :: rest).drop (common n.name w) = w.drop (common n.name w) ++ ';' :: rest :=
    fun rest => List.drop_append_of_le_length (common_le _ _)
  have hhead : ∀ (u rest : Text), (u ++ ';' :: rest).head? = (u ++ [';']).head? := by
    intro u rest
    cases u <;> rfl
  rw [Name.agreement, Name.agreement, common_append h, common_append h, hdrop, hdrop, hhead]

/-- The longest name does not depend on what comes after the semicolon. -/
theorem longest?_append (c : Char) (w rest : Text) : longest? (c :: w ++ ';' :: rest) = longest? (c :: w ++ [';']) := by
  rw [longest?, longest?, List.cons_append, List.cons_append, candidates_cons, candidates_cons]
  refine List.foldl_ext _ _ _ fun found n hn => ?_
  have hname := Name.length?_append (semicolon_not_mem (List.mem_filter.1 hn).1) (c :: w) rest
  rw [List.cons_append, List.cons_append] at hname
  rw [hname]

/-- How many characters could still become a name does not depend on what comes after the semicolon. -/
theorem reach_append (c : Char) (w rest : Text) : reach (c :: w ++ ';' :: rest) = reach (c :: w ++ [';']) := by
  rw [reach, reach, List.cons_append, List.cons_append, candidates_cons, candidates_cons]
  refine List.foldl_ext _ _ _ fun found n hn => ?_
  have hname := Name.agreement_append (semicolon_not_mem (List.mem_filter.1 hn).1) (c :: w) rest
  rw [List.cons_append, List.cons_append] at hname
  rw [hname]

/-! ## Reading what is written -/

/-- A written name starts with a letter. -/
theorem head_of_written {name value : Text} (h : (name, value) ∈ writtenNames) : name.head?.any Char.isAlpha = true :=
  (show ∀ x ∈ writtenNames, x.1.head?.any Char.isAlpha = true by decide) _ h

theorem ne_nil_of_written {name value : Text} (h : (name, value) ∈ writtenNames) : name ≠ [] := by
  rintro rfl
  cases head_of_written h

/-- What is found for a written name, whatever comes after it. -/
theorem searched_written {name value : Text} (h : (name, value) ∈ writtenNames) (rest : Text) :
    (longest? (name ++ ';' :: rest)).map (fun (n, k) => (n.value, n.name.length, k)) =
      some (value, name.length, name.length + 1) ∧ reach (name ++ ';' :: rest) = name.length + 1 := by
  have hfound := List.all_eq_true.1 table_facts.2 _ h
  rw [beq_iff_eq, ← names_eq_spelled] at hfound
  obtain ⟨c, w, rfl⟩ := List.exists_cons_of_ne_nil (ne_nil_of_written h)
  rw [longest?_append, reach_append, longest?, reach, List.cons_append, candidates_cons]
  exact ⟨congrArg Prod.fst hfound, congrArg Prod.snd hfound⟩

/-- What is read at a written reference is what the name stands for, and then what comes after the semicolon. -/
theorem read_written {name value : Text} (h : (name, value) ∈ writtenNames) (inAttribute : Bool) {rest : Text}
    (hrest : rest.head? ≠ some '\r') : read inAttribute (name ++ ';' :: rest) = ⟨value, rest, false⟩ := by
  obtain ⟨hlongest, hreach⟩ := searched_written h rest
  obtain ⟨⟨n, k⟩, hfound, hvalue⟩ := Option.map_eq_some_iff.1 hlongest
  obtain ⟨rfl, hlength, rfl⟩ : n.value = value ∧ n.name.length = name.length ∧ k = name.length + 1 := by
    simpa using hvalue
  have hname : read inAttribute (name ++ ';' :: rest) = Reference.name inAttribute (name ++ ';' :: rest) := by
    have hhash : (name ++ ';' :: rest).head? ≠ some '#' := by
      have hletter := head_of_written h
      obtain ⟨c, w, rfl⟩ := List.exists_cons_of_ne_nil (ne_nil_of_written h)
      rintro hc
      cases hc
      cases hletter
    unfold read
    split
    · rename_i heq
      rw [heq] at hhash
      exact absurd rfl hhash
    · rename_i heq
      rw [heq] at hhash
      exact absurd rfl hhash
    · rename_i heq
      rw [heq] at hhash
      exact absurd rfl hhash
    · rfl
  -- the search saw one character after the semicolon, which is no half of a line end
  have hafter : afterSearch (name.length + 1) (name.length + 1 + 1) (name ++ ';' :: rest) = rest := by
    have hsplit : name ++ ';' :: rest = (name ++ [';']) ++ rest := by simp
    have hlength : (name ++ [';']).length = name.length + 1 := by simp
    rw [hsplit, ← hlength, afterSearch, List.take_length_add_append, List.drop_left, List.drop_length_add_append]
    cases rest with
    | nil => rfl
    | cons c rest =>
      have hc : c ≠ '\r' := fun hc => hrest (congrArg some hc)
      simp [hc]
  rw [hname, Reference.name, hfound, hreach]
  dsimp only
  rw [if_neg (by simp [hlength]), hafter]

/-! ## Reading escaped text -/

/-- Whether characters are written as themselves, except an ampersand and some others, which are written by their names. -/
def Escapes (escape : Char → Text) : Prop :=
  ∀ c, (∃ name, (name, [c]) ∈ writtenNames ∧ escape c = '&' :: name ++ [';']) ∨ (escape c = [c] ∧ c ≠ '&')

theorem escapes_escapedTextChar : Escapes escapedTextChar := by
  intro c
  unfold escapedTextChar
  split
  · rename_i hc
    exact Or.inl ⟨"amp", hc ▸ by decide, rfl⟩
  · rename_i hamp
    split
    · rename_i hc
      exact Or.inl ⟨"nbsp", hc ▸ by decide, rfl⟩
    · split
      · rename_i hc
        exact Or.inl ⟨"lt", hc ▸ by decide, rfl⟩
      · split
        · rename_i hc
          exact Or.inl ⟨"gt", hc ▸ by decide, rfl⟩
        · exact Or.inr ⟨rfl, hamp⟩

theorem escapes_escapedAttrChar : Escapes escapedAttrChar := by
  intro c
  unfold escapedAttrChar
  split
  · rename_i hc
    exact Or.inl ⟨"amp", hc ▸ by decide, rfl⟩
  · rename_i hamp
    split
    · rename_i hc
      exact Or.inl ⟨"nbsp", hc ▸ by decide, rfl⟩
    · split
      · rename_i hc
        exact Or.inl ⟨"quot", hc ▸ by decide, rfl⟩
      · exact Or.inr ⟨rfl, hamp⟩

variable {escape : Char → Text} {t rest : Text}

/-- Escaped text starts with no carriage return unless the text does. -/
theorem Escapes.head_ne (h : Escapes escape) (ht : '\r' ∉ t) (hrest : rest.head? ≠ some '\r') :
    (t.flatMap escape ++ rest).head? ≠ some '\r' := by
  cases t with
  | nil => exact hrest
  | cons c t =>
    rw [List.flatMap_cons]
    rcases h c with ⟨name, -, hescape⟩ | ⟨hescape, -⟩
    · rw [hescape]
      simp
    · rw [hescape]
      rintro hc
      exact ht (List.mem_cons.2 (Or.inl (Option.some.inj hc).symm))

section

variable {ends : Char → Bool} {inAttribute : Bool} {fuel : Nat} {c : Char}

/-- Reading stops where it ends. -/
theorem resolveUntil_of_ends (hc : ends c = true) : resolveUntil ends inAttribute (fuel + 1) (c :: rest) = ([], c :: rest) := by
  unfold resolveUntil
  rw [if_pos hc]

/-- At an ampersand a reference is read. -/
theorem resolveUntil_amp (hends : ends '&' = false) {value more : Text} {bare : Bool}
    (hread : read inAttribute rest = ⟨value, more, bare⟩) :
    resolveUntil ends inAttribute (fuel + 1) ('&' :: rest) =
      (value ++ (resolveUntil ends inAttribute fuel more).1, (resolveUntil ends inAttribute fuel more).2) := by
  have hstep : resolveUntil ends inAttribute (fuel + 1) ('&' :: rest) =
      if ends '&' then ([], '&' :: rest)
      else ((read inAttribute rest).value ++ (resolveUntil ends inAttribute fuel (read inAttribute rest).rest).1,
        (resolveUntil ends inAttribute fuel (read inAttribute rest).rest).2) := rfl
  rw [hstep, hends, hread]
  rfl

/-- Other characters than ampersands and carriage returns are read as themselves. -/
theorem resolveUntil_char (hends : ends c = false) (hamp : c ≠ '&') (hcr : c ≠ '\r') :
    resolveUntil ends inAttribute (fuel + 1) (c :: rest) =
      (c :: (resolveUntil ends inAttribute fuel rest).1, (resolveUntil ends inAttribute fuel rest).2) := by
  conv => lhs; unfold resolveUntil
  rw [if_neg (by simp [hends])]
  split
  rename_i hread
  split at hread
  · exact absurd rfl hamp
  · exact absurd rfl hcr
  · exact absurd rfl hcr
  · cases hread
    rfl

/-- Escaped text up to where reading ends is read as the text. -/
theorem Escapes.resolveUntil (h : Escapes escape) (hends : ∀ c ∈ t.flatMap escape, ends c = false)
    (hstop : rest = [] ∨ rest.head?.any ends = true) (ht : '\r' ∉ t) (hrest : rest.head? ≠ some '\r')
    (hfuel : (t.flatMap escape ++ rest).length ≤ fuel) :
    resolveUntil ends inAttribute fuel (t.flatMap escape ++ rest) = (t, rest) := by
  induction t generalizing fuel with
  | nil =>
    rw [List.flatMap_nil, List.nil_append] at hfuel ⊢
    cases rest with
    | nil => cases fuel <;> rfl
    | cons c rest =>
      cases fuel with
      | zero => cases hfuel
      | succ fuel => exact resolveUntil_of_ends (hstop.resolve_left (List.cons_ne_nil c rest))
  | cons c t ih =>
    obtain ⟨hc, ht⟩ := not_or.1 (mt List.mem_cons.2 ht)
    have hhead := h.head_ne ht hrest
    rw [List.flatMap_cons, List.append_assoc] at hfuel ⊢
    rw [List.flatMap_cons] at hends
    have hmore : ∀ c ∈ t.flatMap escape, ends c = false := fun c hc => hends c (List.mem_append_right _ hc)
    cases fuel with
    | zero =>
      rcases h c with ⟨name, -, hescape⟩ | ⟨hescape, -⟩ <;> rw [hescape] at hfuel <;> cases hfuel
    | succ fuel =>
      rcases h c with ⟨name, hname, hescape⟩ | ⟨hescape, hamp⟩
      · rw [hescape] at hfuel hends ⊢
        simp only [List.cons_append, List.append_assoc, List.nil_append, List.length_cons, List.length_append] at hfuel ⊢
        rw [resolveUntil_amp (hends '&' (by simp)) (read_written hname inAttribute hhead),
          ih hmore ht (by rw [List.length_append]; omega)]
        rfl
      · rw [hescape] at hfuel hends ⊢
        rw [List.singleton_append] at hfuel ⊢
        rw [resolveUntil_char (hends c (by simp)) hamp (Ne.symm hc), ih hmore ht (Nat.le_of_succ_le_succ hfuel)]

end

/-- Escaped text is read as the text. -/
theorem resolve_escaped (inAttribute : Bool) (ht : '\r' ∉ t) : resolve inAttribute (t.flatMap escapedTextChar) = t := by
  have h : resolveUntil (fun _ => false) inAttribute _ (t.flatMap escapedTextChar ++ []) = (t, []) :=
    escapes_escapedTextChar.resolveUntil (fun _ _ => rfl) (Or.inl rfl) ht nofun (Nat.le_refl _)
  rw [List.append_nil] at h
  rw [resolve, h]

/-- Escaped text does not start with a number that lacks its semicolon. -/
theorem startsBare_escaped (ht : '\r' ∉ t) : startsBare (t.flatMap escapedTextChar) = false := by
  cases t with
  | nil => rfl
  | cons c t =>
    have ht' : '\r' ∉ t := fun h => ht (List.mem_cons_of_mem _ h)
    have hhead : (t.flatMap escapedTextChar ++ []).head? ≠ some '\r' := escapes_escapedTextChar.head_ne ht' nofun
    rw [List.append_nil] at hhead
    rw [List.flatMap_cons]
    rcases escapes_escapedTextChar c with ⟨name, hname, hescape⟩ | ⟨hescape, hamp⟩
    · rw [hescape]
      simp only [List.cons_append, List.append_assoc, List.nil_append, startsBare, read_written hname false hhead]
    · rw [hescape, List.singleton_append, startsBare]
      rintro rest heq
      cases heq
      exact hamp rfl

end Reference

end LocalePages
