import LocalePages.Locale
import LocalePages.Proofs.Texts

/-!
# The grammar of locale names

What stands before the keywords and the codeset of a name is cut into parts (`Locale.partsOf`). A name is read exactly when its parts
are a language, a script or none, a region and variants (`Locale.NameParts`), and it says what its parts and its keywords say
(`Locale.parse_eq_ok_iff`). Every other name is refused for one of three reasons, which the parts tell (`Locale.parse_classifies`).
-/

namespace LocalePages

namespace Locale

/-! ## The parts of a name -/

/-- Whether a character stands between two parts of a name. -/
def isSeparator (c : Char) : Bool := c == '_' || c == '-'

/-- A name without its keywords and its codeset. -/
def baseOf (value : Text) : Text := (value.trim.takeWhile (· != '@')).takeWhile (· != '.')

/-- The parts of a name. -/
def partsOf (value : Text) : List Text := (baseOf value).splitOnP isSeparator

/-- What stands after the first `@`, unless it is empty. -/
def keywordsIn? (t : Text) : Option Text :=
  let keywords := (t.dropWhile (· != '@')).tail
  if keywords = [] then none else some keywords

/-- The keywords of a name. -/
def keywordsOf? (value : Text) : Option Text := keywordsIn? value.trim

/-- A name is cut into its base and its keywords. -/
theorem cutKeywords_trim (value : Text) : cutKeywords value.trim = (baseOf value, keywordsOf? value) := by
  -- what stands before a character that is not there is all there is
  have hbefore : ∀ (c : Char) (t : Text), (Text.cutAt? c t = none ∧ t.takeWhile (· != c) = t ∧ t.dropWhile (· != c) = []) ∨
      Text.cutAt? c t = some (t.takeWhile (· != c), (t.dropWhile (· != c)).tail) := by
    intro c t
    rw [Text.cutAt?_eq]
    by_cases hc : c ∈ t
    · exact Or.inr (if_pos hc)
    · have hother : ∀ d ∈ t, (d != c) = true := fun d hd => bne_iff_ne.2 (ne_of_mem_of_not_mem hd hc)
      exact Or.inl ⟨if_neg hc, List.takeWhile_eq_self_iff.2 hother, List.dropWhile_eq_nil_iff.2 hother⟩
  have hkeywords : keywordsOf? value = if (value.trim.dropWhile (· != '@')).tail.isEmpty then none
      else some (value.trim.dropWhile (· != '@')).tail := by
    simp only [keywordsOf?, keywordsIn?, List.isEmpty_iff]
  rw [cutKeywords, baseOf, hkeywords]
  rcases hbefore '@' value.trim with ⟨hcut, hbase, hrest⟩ | hcut
  · rw [hcut, hbase, hrest]
    dsimp only
    rcases hbefore '.' value.trim with ⟨hcodeset, hall, -⟩ | hcodeset
    · rw [hcodeset, hall]
      rfl
    · rw [hcodeset]
      rfl
  · rw [hcut]
    dsimp only
    rcases hbefore '.' (value.trim.takeWhile (· != '@')) with ⟨hcodeset, hall, -⟩ | hcodeset
    · rw [hcodeset, hall]
    · rw [hcodeset]

/-! ## What a part can be -/

/-- Whether a text is made of letters, and of a number of them. -/
def HasLetters (low high : Nat) (t : Text) : Prop := low ≤ t.length ∧ t.length ≤ high ∧ ∀ c ∈ t, c.isAlpha = true

/-- Whether a text can be a language: two to eight letters. -/
def IsLanguage (t : Text) : Prop := HasLetters 2 8 t

/-- Whether a text can be a script: four letters. -/
def IsScript (t : Text) : Prop := HasLetters 4 4 t

/-- Whether a text can be a region: two letters or three digits. -/
def IsRegion (t : Text) : Prop := HasLetters 2 2 t ∨ (t.length = 3 ∧ ∀ c ∈ t, c.isDigit = true)

/-- Whether a text can be a variant: letters and digits, one at least. -/
def IsVariant (t : Text) : Prop := t ≠ [] ∧ ∀ c ∈ t, c.isAlphanum = true

instance (low high : Nat) (t : Text) : Decidable (HasLetters low high t) := inferInstanceAs (Decidable (_ ∧ _ ∧ _))

instance (t : Text) : Decidable (IsLanguage t) := inferInstanceAs (Decidable (HasLetters _ _ _))

instance (t : Text) : Decidable (IsScript t) := inferInstanceAs (Decidable (HasLetters _ _ _))

instance (t : Text) : Decidable (IsRegion t) := inferInstanceAs (Decidable (_ ∨ _))

instance (t : Text) : Decidable (IsVariant t) := inferInstanceAs (Decidable (_ ∧ _))

theorem isLetters_iff {low high : Nat} {t : Text} : isLetters low high t = true ↔ HasLetters low high t := by
  simp [isLetters, HasLetters, and_assoc]

theorem isRegion_iff {t : Text} : (isLetters 2 2 t || isNumber t) = true ↔ IsRegion t := by
  simp [IsRegion, isNumber, isLetters_iff]

theorem isVariant_iff {t : Text} : (!t.isEmpty && t.all Char.isAlphanum) = true ↔ IsVariant t := by
  simp [IsVariant]

/-- No script can be a region: it is longer. -/
theorem IsScript.not_isRegion {t : Text} (h : IsScript t) : ¬IsRegion t := by
  rintro (⟨-, hlength, -⟩ | ⟨hlength, -⟩)
  · exact absurd (h.1.trans hlength) (by decide)
  · exact absurd (h.1.trans hlength.le) (by decide)

/-- The parts of a full name, as they stand in it. -/
structure NameParts where
  language : Text
  script : Option Text
  region : Text
  variants : List Text
  isLanguage : IsLanguage language
  isScript : ∀ s ∈ script, IsScript s
  isRegion : IsRegion region
  isVariant : ∀ v ∈ variants, IsVariant v

/-- The parts in the order in which they are written. -/
def NameParts.list (n : NameParts) : List Text := n.language :: (n.script.toList ++ n.region :: n.variants)

/-- The locale of a full name, in canonical case. -/
def NameParts.locale (n : NameParts) (keywords : Option Text) : Locale :=
  ⟨Text.lower n.language, n.script.map titleCase, Text.upper n.region, n.variants.map Text.upper, keywords⟩

/-- Whether parts are a language and a script or none, and nothing else. -/
def LacksRegion (parts : List Text) : Prop :=
  ∃ (language : Text) (script : Option Text), IsLanguage language ∧ (∀ s ∈ script, IsScript s) ∧ parts = language :: script.toList

/-! ## Taking parts in -/

variable {script : Option Text} {region part : Text} {variants rest : List Text} {p : Parts}

theorem add?_of_isScript (h : IsScript part) :
    Parts.add? ⟨none, none, variants⟩ part = some ⟨some (titleCase part), none, variants⟩ := by
  simp [Parts.add?, isLetters_iff.2 h]

theorem add?_of_isRegion (h : IsRegion part) :
    Parts.add? ⟨script, none, variants⟩ part = some ⟨script, some (Text.upper part), variants⟩ := by
  have hscript : isLetters 4 4 part = false := by
    rw [← Bool.not_eq_true, isLetters_iff]
    exact fun hscript => IsScript.not_isRegion hscript h
  simp [Parts.add?, hscript, isRegion_iff.2 h]

/-- After a region there are variants only. -/
theorem add?_eq_some_iff : Parts.add? ⟨script, some region, variants⟩ part = some p ↔
    IsVariant part ∧ p = ⟨script, some region, variants ++ [Text.upper part]⟩ := by
  by_cases hpart : IsVariant part
  · simp [Parts.add?, isVariant_iff.2 hpart, hpart, eq_comm]
  · have hpart' := Bool.eq_false_iff.2 (mt isVariant_iff.1 hpart)
    simp [Parts.add?, hpart', hpart]

/-- What is no region and no script, or another script, cannot stand before a region. -/
theorem add?_eq_none (hscript : script = none → ¬IsScript part) (hregion : ¬IsRegion part) :
    Parts.add? ⟨script, none, variants⟩ part = none := by
  have hregion' := Bool.eq_false_iff.2 (mt isRegion_iff.1 hregion)
  cases script with
  | none => simp [Parts.add?, Bool.eq_false_iff.2 (mt isLetters_iff.1 (hscript rfl)), hregion']
  | some s => simp [Parts.add?, hregion']

/-- After a region all parts are variants. -/
theorem foldlM_variants_iff : rest.foldlM Parts.add? ⟨script, some region, variants⟩ = some p ↔
    (∀ v ∈ rest, IsVariant v) ∧ p = ⟨script, some region, variants ++ rest.map Text.upper⟩ := by
  induction rest generalizing variants with
  | nil => simp [eq_comm]
  | cons part rest ih =>
    rw [List.foldlM_cons, Option.bind_eq_bind, Option.bind_eq_some_iff, List.forall_mem_cons]
    constructor
    · rintro ⟨next, hnext, hrest⟩
      obtain ⟨hpart, rfl⟩ := add?_eq_some_iff.1 hnext
      obtain ⟨hvariants, rfl⟩ := ih.1 hrest
      exact ⟨⟨hpart, hvariants⟩, by simp⟩
    · rintro ⟨⟨hpart, hvariants⟩, rfl⟩
      exact ⟨_, add?_eq_some_iff.2 ⟨hpart, rfl⟩, ih.2 ⟨hvariants, by simp⟩⟩

/-- Parts that do not start with a script are none, or a region and variants. -/
theorem foldlM_region_iff (h : ∀ part ∈ rest.head?, script = none → ¬IsScript part) :
    rest.foldlM Parts.add? ⟨script, none, []⟩ = some p ↔
      (rest = [] ∧ p = ⟨script, none, []⟩) ∨ ∃ region variants, rest = region :: variants ∧ IsRegion region ∧
        (∀ v ∈ variants, IsVariant v) ∧ p = ⟨script, some (Text.upper region), variants.map Text.upper⟩ := by
  cases rest with
  | nil => simp [eq_comm]
  | cons part rest =>
    rw [List.foldlM_cons]
    by_cases hregion : IsRegion part
    · rw [add?_of_isRegion hregion, Option.bind_eq_bind, Option.bind_some, foldlM_variants_iff]
      constructor
      · rintro ⟨hvariants, rfl⟩
        exact Or.inr ⟨part, rest, rfl, hregion, hvariants, rfl⟩
      · rintro (⟨⟨⟩, -⟩ | ⟨region, variants, ⟨⟩, -, hvariants, rfl⟩)
        exact ⟨hvariants, rfl⟩
    · rw [add?_eq_none (h part rfl) hregion]
      constructor
      · rintro ⟨⟩
      · rintro (⟨⟨⟩, -⟩ | ⟨region, variants, ⟨⟩, hregion', -⟩)
        exact absurd hregion' hregion

/-- The parts after a language are a script or none, and then nothing, or a region and variants. -/
theorem foldlM_parts_iff : rest.foldlM Parts.add? ⟨none, none, []⟩ = some p ↔
    ∃ script : Option Text, (∀ s ∈ script, IsScript s) ∧
      ((rest = script.toList ∧ p = ⟨script.map titleCase, none, []⟩) ∨
        ∃ region variants, rest = script.toList ++ region :: variants ∧ IsRegion region ∧ (∀ v ∈ variants, IsVariant v) ∧
          p = ⟨script.map titleCase, some (Text.upper region), variants.map Text.upper⟩) := by
  by_cases hscript : ∃ s, rest.head? = some s ∧ IsScript s
  · obtain ⟨s, hhead, hs⟩ := hscript
    obtain ⟨after, rfl⟩ := List.head?_eq_some_iff.1 hhead
    have hafter : ∀ part ∈ after.head?, some (titleCase s) = none → ¬IsScript part := fun _ _ => nofun
    rw [List.foldlM_cons, add?_of_isScript hs, Option.bind_eq_bind, Option.bind_some, foldlM_region_iff hafter]
    constructor
    · rintro (⟨rfl, rfl⟩ | ⟨region, variants, rfl, hregion, hvariants, rfl⟩)
      · exact ⟨some s, by simpa using hs, Or.inl ⟨rfl, rfl⟩⟩
      · exact ⟨some s, by simpa using hs, Or.inr ⟨region, variants, rfl, hregion, hvariants, rfl⟩⟩
    · rintro ⟨_ | _, -, ⟨⟨⟩, rfl⟩ | ⟨region, variants, ⟨⟩, hregion, hvariants, rfl⟩⟩
      · exact absurd hregion hs.not_isRegion
      · exact Or.inl ⟨rfl, rfl⟩
      · exact Or.inr ⟨region, variants, rfl, hregion, hvariants, rfl⟩
  · have hhead : ∀ part ∈ rest.head?, none = (none : Option Text) → ¬IsScript part :=
      fun part hpart _ hs => hscript ⟨part, hpart, hs⟩
    rw [foldlM_region_iff hhead]
    constructor
    · intro h
      exact ⟨none, nofun, h⟩
    · rintro ⟨_ | s, hs, h⟩
      · exact h
      · have hrest : rest.head? = some s := by
          rcases h with ⟨rfl, -⟩ | ⟨_, _, rfl, -⟩ <;> rfl
        exact absurd ⟨s, hrest, hs s rfl⟩ hscript

/-! ## Reading a name -/

variable {value language : Text} {l : Locale}

theorem partsOf_ne_nil (value : Text) : partsOf value ≠ [] := List.splitOnP_ne_nil _ _

theorem IsLanguage.ne_nil (h : IsLanguage language) : language ≠ [] := by
  rintro rfl
  exact absurd h.1 (by decide)

/-- A name is read by its parts. -/
theorem parse_of_partsOf (h : partsOf value = language :: rest) :
    parse value = if language = [] then .error (.missingLanguage value) else if ¬IsLanguage language then .error (.invalid value)
      else match rest.foldlM Parts.add? ⟨none, none, []⟩ with
        | none => .error (.invalid value)
        | some parts =>
          match parts.region with
          | none => .error (.missingRegion value)
          | some region => .ok ⟨Text.lower language, parts.script, region, parts.variants, keywordsOf? value⟩ := by
  have hparts : ((baseOf value).splitOnP fun c => c == '_' || c == '-') = language :: rest := h
  unfold parse
  rw [cutKeywords_trim]
  dsimp only
  rw [hparts]
  simp only [List.isEmpty_iff, Bool.not_eq_true', ← Bool.not_eq_true, isLetters_iff]
  rfl

/-- The parts of a full name are read, with the keywords. -/
theorem parse_of_list {n : NameParts} (h : partsOf value = n.list) : parse value = .ok (n.locale (keywordsOf? value)) := by
  rw [parse_of_partsOf h, if_neg n.isLanguage.ne_nil, if_neg (not_not.2 n.isLanguage),
    foldlM_parts_iff.2 ⟨n.script, n.isScript, Or.inr ⟨n.region, n.variants, rfl, n.isRegion, n.isVariant, rfl⟩⟩]
  rfl

/-- Nothing before the first separator is a missing language. -/
theorem parse_of_head? (h : (partsOf value).head? = some []) : parse value = .error (.missingLanguage value) := by
  obtain ⟨rest, hparts⟩ := List.head?_eq_some_iff.1 h
  rw [parse_of_partsOf hparts, if_pos rfl]

/-- Nothing after a language and a script is a missing region. -/
theorem parse_of_lacksRegion (h : LacksRegion (partsOf value)) : parse value = .error (.missingRegion value) := by
  obtain ⟨language, script, hlanguage, hscript, hparts⟩ := h
  rw [parse_of_partsOf hparts, if_neg hlanguage.ne_nil, if_neg (not_not.2 hlanguage),
    foldlM_parts_iff.2 ⟨script, hscript, Or.inl ⟨rfl, rfl⟩⟩]

/-- The parts of a name are those of a full one, or there is no language, or no region, or the name is invalid. -/
theorem parse_cases (value : Text) : (∃ n : NameParts, partsOf value = n.list) ∨ (partsOf value).head? = some [] ∨
    LacksRegion (partsOf value) ∨ parse value = .error (.invalid value) := by
  obtain ⟨language, rest, hparts⟩ := List.exists_cons_of_ne_nil (partsOf_ne_nil value)
  rw [parse_of_partsOf hparts, hparts]
  by_cases hempty : language = []
  · exact Or.inr (Or.inl (by rw [hempty, List.head?_cons]))
  · rw [if_neg hempty]
    by_cases hlanguage : IsLanguage language
    · rw [if_neg (not_not.2 hlanguage)]
      cases hfold : rest.foldlM Parts.add? ⟨none, none, []⟩ with
      | none => exact Or.inr (Or.inr (Or.inr rfl))
      | some parts =>
        obtain ⟨script, hscript, ⟨rfl, -⟩ | ⟨region, variants, rfl, hregion, hvariants, -⟩⟩ := foldlM_parts_iff.1 hfold
        · exact Or.inr (Or.inr (Or.inl ⟨language, script, hlanguage, hscript, rfl⟩))
        · exact Or.inl ⟨⟨language, script, region, variants, hlanguage, hscript, hregion, hvariants⟩, rfl⟩
    · exact Or.inr (Or.inr (Or.inr (if_pos hlanguage)))

/-- A name is read exactly when its parts are those of a full name. -/
theorem parse_eq_ok_iff : parse value = .ok l ↔ ∃ n : NameParts, partsOf value = n.list ∧ l = n.locale (keywordsOf? value) := by
  constructor
  · intro h
    rcases parse_cases value with ⟨n, hn⟩ | hempty | hlacks | hinvalid
    · exact ⟨n, hn, Except.ok.inj (h.symm.trans (parse_of_list hn))⟩
    · cases h.symm.trans (parse_of_head? hempty)
    · cases h.symm.trans (parse_of_lacksRegion hlacks)
    · cases h.symm.trans hinvalid
  · rintro ⟨n, hn, rfl⟩
    exact parse_of_list hn

/-- The language is missing exactly when nothing stands before the first separator. -/
theorem parse_eq_missingLanguage_iff : parse value = .error (.missingLanguage value) ↔ (partsOf value).head? = some [] := by
  refine ⟨fun h => ?_, parse_of_head?⟩
  rcases parse_cases value with ⟨n, hn⟩ | hempty | hlacks | hinvalid
  · cases h.symm.trans (parse_of_list hn)
  · exact hempty
  · cases h.symm.trans (parse_of_lacksRegion hlacks)
  · cases h.symm.trans hinvalid

/-- The region is missing exactly when nothing stands after the language but a script. -/
theorem parse_eq_missingRegion_iff : parse value = .error (.missingRegion value) ↔ LacksRegion (partsOf value) := by
  refine ⟨fun h => ?_, parse_of_lacksRegion⟩
  rcases parse_cases value with ⟨n, hn⟩ | hempty | hlacks | hinvalid
  · cases h.symm.trans (parse_of_list hn)
  · cases h.symm.trans (parse_of_head? hempty)
  · exact hlacks
  · cases h.symm.trans hinvalid

/-- A name is read exactly when its parts are a language, a script or none, a region and variants, and then as these say in canonical
case, with the keywords after the first `@`. The language is missing exactly when the first part is empty, the region exactly when a
language stands alone or with a script, and every other name is invalid. A refusal holds the name as it was given. -/
theorem parse_classifies (value : Text) :
    (∀ l, parse value = .ok l ↔ ∃ n : NameParts, partsOf value = n.list ∧ l = n.locale (keywordsOf? value)) ∧
    (parse value = .error (.missingLanguage value) ↔ (partsOf value).head? = some []) ∧
    (parse value = .error (.missingRegion value) ↔ LacksRegion (partsOf value)) ∧
    (parse value = .error (.invalid value) ↔
      (¬∃ n : NameParts, partsOf value = n.list) ∧ (partsOf value).head? ≠ some [] ∧ ¬LacksRegion (partsOf value)) ∧
    ∀ e, parse value = .error e → e = .missingLanguage value ∨ e = .missingRegion value ∨ e = .invalid value := by
  have hread : (∃ n : NameParts, partsOf value = n.list) ↔ ∃ l, parse value = .ok l := by
    constructor
    · rintro ⟨n, hn⟩
      exact ⟨_, parse_of_list hn⟩
    · rintro ⟨l, hl⟩
      obtain ⟨n, hn, -⟩ := parse_eq_ok_iff.1 hl
      exact ⟨n, hn⟩
  have hanswers : (∃ l, parse value = .ok l) ∨ parse value = .error (.missingLanguage value) ∨
      parse value = .error (.missingRegion value) ∨ parse value = .error (.invalid value) :=
    (parse_cases value).imp hread.1 (Or.imp parse_of_head? (Or.imp_left parse_of_lacksRegion))
  refine ⟨fun _ => parse_eq_ok_iff, parse_eq_missingLanguage_iff, parse_eq_missingRegion_iff, ?_, fun e he => ?_⟩
  · rw [hread, Ne, ← parse_eq_missingLanguage_iff, ← parse_eq_missingRegion_iff]
    rcases hanswers with ⟨l, h⟩ | h | h | h <;> simp [h]
  · rcases hanswers with ⟨l, h⟩ | h | h | h <;> rw [h] at he <;> cases he <;> simp

end Locale

end LocalePages
