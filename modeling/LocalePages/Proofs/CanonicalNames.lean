import Mathlib
import LocalePages.Proofs.LocaleGrammar

/-!
# Canonical names of locales

A locale that was read is in canonical form (`Locale.isCanonical_of_parse`), and a locale in canonical form is read back from its
parts, whichever separator is between them (`Locale.parse_named`). So are its full name and its two short ones, of which the latter
tell the language and the region only. How a name is read depends neither on the case of its parts nor on its separators, nor on the
codeset after it (`Locale.parse_names`).
-/

namespace LocalePages

/-! ## Texts that are the same but for case -/

namespace Text

variable {s t : Text}

@[simp] theorem lower_lower (t : Text) : lower (lower t) = lower t := by
  simp [lower]

@[simp] theorem lower_upper (t : Text) : lower (upper t) = lower t := by
  simp [lower, upper]

@[simp] theorem upper_lower (t : Text) : upper (lower t) = upper t := by
  simp [lower, upper]

/-- Texts that are the same in small letters are the same in capitals. -/
theorem upper_congr (h : lower s = lower t) : upper s = upper t := by
  rw [← upper_lower s, h, upper_lower]

theorem length_congr (h : lower s = lower t) : s.length = t.length := by
  simpa [lower] using congrArg List.length h

/-- What does not depend on the case of a character holds throughout both texts. -/
theorem forall_mem_congr {p : Char → Bool} (hp : ∀ c, p c.toLower = p c) (h : lower s = lower t) (hs : ∀ c ∈ s, p c = true) :
    ∀ c ∈ t, p c = true := by
  have hlower : ∀ u : Text, (∀ c ∈ lower u, p c = true) ↔ ∀ c ∈ u, p c = true := by
    intro u
    simp [lower, hp]
  rwa [← hlower, ← h, hlower]

/-- White space at the end goes once. -/
theorem dropEndWhile_dropEndWhile (p : Char → Bool) (t : Text) : dropEndWhile p (dropEndWhile p t) = dropEndWhile p t := by
  rw [dropEndWhile, dropEndWhile, List.reverse_reverse, List.dropWhile_idempotent]

/-- Texts joined by a character are the first of them, with the character before each of the others. -/
theorem joinWith_cons (c : Char) (first : Text) (rest : List Text) :
    joinWith [c] (first :: rest) = first ++ rest.flatMap fun t => c :: t := by
  induction rest generalizing first with
  | nil => simp [joinWith_singleton]
  | cons second rest ih =>
    rw [joinWith_cons_cons, ih]
    simp

end Text

/-- No digit is a letter, in neither case. -/
theorem isDigit_toLower (c : Char) : c.toLower.isDigit = c.isDigit := by
  by_cases h : c.isUpper
  · have hdigit : ∀ c : Char, c.isAlphanum = true → c.toLower.isDigit = c.isDigit :=
      fun c hc => Text.of_isAlphanum (p := fun c => c.toLower.isDigit = c.isDigit) (by decide +kernel) hc
    exact hdigit c (by simp [Char.isAlphanum, Char.isAlpha, h])
  · rw [Char.toLower_eq_of_not_isUpper h]

namespace Locale

/-! ## Parts that are the same but for case -/

variable {s t : Text}

theorem HasLetters.congr {low high : Nat} (hs : HasLetters low high s) (h : Text.lower s = Text.lower t) : HasLetters low high t := by
  obtain ⟨hlow, hhigh, hletters⟩ := hs
  rw [Text.length_congr h] at hlow hhigh
  exact ⟨hlow, hhigh, Text.forall_mem_congr (by simp) h hletters⟩

theorem IsRegion.congr (hs : IsRegion s) (h : Text.lower s = Text.lower t) : IsRegion t := by
  rcases hs with hletters | ⟨hlength, hdigits⟩
  · exact Or.inl (hletters.congr h)
  · rw [Text.length_congr h] at hlength
    exact Or.inr ⟨hlength, Text.forall_mem_congr isDigit_toLower h hdigits⟩

theorem IsVariant.congr (hs : IsVariant s) (h : Text.lower s = Text.lower t) : IsVariant t := by
  obtain ⟨hne, hall⟩ := hs
  refine ⟨?_, Text.forall_mem_congr (by simp [Char.isAlphanum, isDigit_toLower]) h hall⟩
  rw [← List.length_pos_iff] at hne ⊢
  rwa [← Text.length_congr h]

theorem titleCase_congr (h : Text.lower s = Text.lower t) : titleCase s = titleCase t := by
  rw [titleCase, titleCase, h]

@[simp] theorem lower_titleCase (t : Text) : Text.lower (titleCase t) = Text.lower t := by
  rw [← Text.lower_lower t, titleCase]
  cases Text.lower t with
  | nil => rfl
  | cons c rest => simp [Text.lower]

theorem variants_congr {variants variants' : List Text} (h : List.Forall₂ (fun s t => Text.lower s = Text.lower t) variants variants')
    (hvariants : ∀ v ∈ variants, IsVariant v) :
    (∀ v ∈ variants', IsVariant v) ∧ variants'.map Text.upper = variants.map Text.upper := by
  induction h with
  | nil => exact ⟨nofun, rfl⟩
  | cons hv _ ih =>
    obtain ⟨hfirst, hothers⟩ := List.forall_mem_cons.1 hvariants
    obtain ⟨hall, hmap⟩ := ih hothers
    exact ⟨List.forall_mem_cons.2 ⟨hfirst.congr hv, hall⟩, by simp [hmap, Text.upper_congr hv]⟩

/-- Parts that are the same as those of a full name but for case are those of a full name, of the same locale. -/
theorem NameParts.exists_of_alike (n : NameParts) {parts : List Text}
    (h : List.Forall₂ (fun s t => Text.lower s = Text.lower t) n.list parts) :
    ∃ n' : NameParts, n'.list = parts ∧ n'.locale = n.locale := by
  obtain ⟨language, script, region, variants, hlanguage, hscript, hregion, hvariants⟩ := n
  obtain ⟨language', rest', hl, hrest, rfl⟩ := List.forall₂_cons_left_iff.1 h
  -- the script is there in both or in none
  obtain ⟨script', after', hs, hafter, rfl⟩ : ∃ (script' : Option Text) (after' : List Text),
      Option.Rel (fun s t => Text.lower s = Text.lower t) script script' ∧
        List.Forall₂ (fun s t => Text.lower s = Text.lower t) (region :: variants) after' ∧ rest' = script'.toList ++ after' := by
    cases script with
    | none => exact ⟨none, rest', .none, hrest, rfl⟩
    | some s =>
      obtain ⟨s', after', hs, hafter, rfl⟩ := List.forall₂_cons_left_iff.1 hrest
      exact ⟨some s', after', .some hs, hafter, rfl⟩
  obtain ⟨region', variants', hr, hv, rfl⟩ := List.forall₂_cons_left_iff.1 hafter
  have hscript' : (∀ s ∈ script', IsScript s) ∧ script'.map titleCase = script.map titleCase := by
    cases hs with
    | none => exact ⟨nofun, rfl⟩
    | some hs =>
      refine ⟨?_, by simp [titleCase_congr hs]⟩
      rintro _ ⟨⟩
      exact (hscript _ rfl).congr hs
  have hvariants' := variants_congr hv hvariants
  refine ⟨⟨language', script', region', variants', hlanguage.congr hl, hscript'.1, hregion.congr hr, hvariants'.1⟩, rfl, ?_⟩
  funext keywords
  simp [locale, hl, hscript'.2, hvariants'.2, Text.upper_congr hr]

/-! ## What stands before the keywords and the codeset -/

/-- All parts of a full name are letters and digits, one at least. -/
theorem NameParts.isVariant_of_mem_list (n : NameParts) : ∀ part ∈ n.list, IsVariant part := by
  have hletters : ∀ {low high : Nat} {t : Text}, HasLetters low high t → 1 ≤ low → IsVariant t := by
    intro low high t h hlow
    refine ⟨List.length_pos_iff.1 (hlow.trans h.1), ?_⟩
    intro c hc
    simp [Char.isAlphanum, h.2.2 c hc]
  intro part hpart
  simp only [list, List.mem_cons, List.mem_append, Option.mem_toList] at hpart
  rcases hpart with rfl | hscript | rfl | hvariant
  · exact hletters n.isLanguage (by decide)
  · exact hletters (n.isScript part hscript) (by decide)
  · rcases n.isRegion with h | ⟨hlength, hdigits⟩
    · exact hletters h (by decide)
    · refine ⟨List.length_pos_iff.1 (by omega), ?_⟩
      intro c hc
      simp [Char.isAlphanum, hdigits c hc]
  · exact n.isVariant part hvariant

/-- Whether a text is made of letters, digits and separators, one at least. -/
def IsBase (t : Text) : Prop := t ≠ [] ∧ ∀ c ∈ t, c.isAlphanum = true ∨ isSeparator c = true

/-- A character of a text is one to cut at, or it is in a part. -/
theorem mem_splitOnP (cut : Char → Bool) {t : Text} {c : Char} (h : c ∈ t) : cut c = true ∨ ∃ part ∈ t.splitOnP cut, c ∈ part := by
  induction t with
  | nil => cases h
  | cons d t ih =>
    obtain ⟨first, others, hr⟩ := List.exists_cons_of_ne_nil (List.splitOnP_ne_nil cut t)
    rw [List.splitOnP_cons_eq_if_modifyHead, hr]
    rw [hr] at ih
    by_cases hd : cut d = true
    · rw [if_pos hd]
      rcases List.mem_cons.1 h with rfl | h
      · exact Or.inl hd
      · rcases ih h with hc | ⟨part, hpart, hc⟩
        · exact Or.inl hc
        · exact Or.inr ⟨part, List.mem_cons_of_mem _ hpart, hc⟩
    · rw [if_neg hd, List.modifyHead_cons]
      rcases List.mem_cons.1 h with rfl | h
      · exact Or.inr ⟨c :: first, List.mem_cons_self, List.mem_cons_self⟩
      · rcases ih h with hc | ⟨part, hpart, hc⟩
        · exact Or.inl hc
        · rcases List.mem_cons.1 hpart with rfl | hpart
          · exact Or.inr ⟨d :: part, List.mem_cons_self, List.mem_cons_of_mem _ hc⟩
          · exact Or.inr ⟨part, List.mem_cons_of_mem _ hpart, hc⟩

/-- What has the parts of a full name is made of letters, digits and separators. -/
theorem isBase_of_splitOnP {n : NameParts} {base : Text} (h : base.splitOnP isSeparator = n.list) : IsBase base := by
  constructor
  · rintro rfl
    have hempty : ([] : Text) ∈ n.list := by
      rw [← h, List.splitOnP_nil]
      exact List.mem_singleton_self _
    exact (n.isVariant_of_mem_list [] hempty).1 rfl
  · intro c hc
    rcases mem_splitOnP isSeparator hc with hc | ⟨part, hpart, hc⟩
    · exact Or.inr hc
    · exact Or.inl ((n.isVariant_of_mem_list part (h ▸ hpart)).2 c hc)

/-- No letter, digit or separator is white space or starts keywords or a codeset. -/
theorem IsBase.not_special {base : Text} (h : IsBase base) : ∀ c ∈ base, isWide c = false ∧ c ≠ '@' ∧ c ≠ '.' := by
  intro c hc
  rcases h.2 c hc with hc | hc
  · refine ⟨Text.isWide_of_isAlphanum hc, ?_, ?_⟩ <;> rintro rfl <;> cases hc
  · simp only [isSeparator, Bool.or_eq_true, beq_iff_eq] at hc
    rcases hc with rfl | rfl <;> decide

/-- White space goes at the end only. -/
theorem IsBase.trim_append {base : Text} (h : IsBase base) (after : Text) :
    Text.trim (base ++ after) = base ++ Text.dropEndWhile isWide after := by
  obtain ⟨c, rest, hfirst⟩ := List.exists_cons_of_ne_nil h.1
  have hstart : (base ++ after).dropWhile isWide = base ++ after := by
    rw [hfirst, List.cons_append, List.dropWhile_cons_of_neg]
    simp [(h.not_special c (hfirst ▸ List.mem_cons_self)).1]
  rw [Text.trim, Text.trimWhile, hstart]
  rcases List.eq_nil_or_concat base with hempty | ⟨before, e, hlast⟩
  · exact absurd hempty h.1
  · rw [List.concat_eq_append] at hlast
    have he : e ∈ base := by simp [hlast]
    rw [hlast, List.append_assoc, List.append_assoc]
    exact Text.dropEndWhile_append_cons before after (h.not_special e he).1

/-- Whether a text is empty or starts keywords or a codeset. -/
def EndsBase (after : Text) : Prop := ∀ c ∈ after.head?, c = '@' ∨ c = '.'

/-- White space at the end is not what starts keywords or a codeset. -/
theorem EndsBase.dropEndWhile {after : Text} (h : EndsBase after) : EndsBase (Text.dropEndWhile isWide after) := by
  cases after with
  | nil => exact h
  | cons c rest =>
    have hc : isWide c = false := by
      rcases h c rfl with rfl | rfl <;> decide
    have hdrop := Text.dropEndWhile_append_cons [] rest hc
    rw [List.nil_append, List.nil_append] at hdrop
    rw [hdrop]
    exact h

/-- A text is cut where keywords or a codeset start. -/
theorem takeWhile_append {base after : Text} (hbase : ∀ c ∈ base, c ≠ '@' ∧ c ≠ '.') (hafter : EndsBase after) :
    ((base ++ after).takeWhile (· != '@')).takeWhile (· != '.') = base := by
  have hkept : ∀ c ∈ base, (c != '.' && c != '@') = true := by
    intro c hc
    simp [hbase c hc]
  rw [List.takeWhile_takeWhile]
  cases after with
  | nil =>
    rw [List.append_nil, List.takeWhile_eq_self_iff]
    simpa using hkept
  | cons c rest =>
    rw [List.takeWhile_append_of_pos (by simpa using hkept), List.takeWhile_cons_of_neg, List.append_nil]
    rcases hafter c rfl with rfl | rfl <;> decide

/-- Keywords are looked for after a text that does not start them. -/
theorem keywordsIn?_append {before : Text} (h : '@' ∉ before) (t : Text) : keywordsIn? (before ++ t) = keywordsIn? t := by
  have hbefore : ∀ c ∈ before, (c != '@') = true := fun c hc => bne_iff_ne.2 (ne_of_mem_of_not_mem hc h)
  rw [keywordsIn?, keywordsIn?, List.dropWhile_append_of_pos hbefore]

/-- White space at the end of a text is white space at the end of its keywords. -/
theorem keywordsIn?_dropEndWhile_append {before : Text} (h : '@' ∉ before) (t : Text) :
    keywordsIn? (Text.dropEndWhile isWide (before ++ t)) = keywordsIn? (Text.dropEndWhile isWide t) := by
  by_cases hat : '@' ∈ t
  · obtain ⟨s, keywords, rfl⟩ := List.append_of_mem hat
    have hwide : isWide '@' = false := by decide
    rw [← List.append_assoc, Text.dropEndWhile_append_cons _ _ hwide, Text.dropEndWhile_append_cons _ _ hwide, List.append_assoc,
      keywordsIn?_append h]
  · have hnone : ∀ u : Text, '@' ∉ u → keywordsIn? (Text.dropEndWhile isWide u) = none := by
      intro u hu
      obtain ⟨after, -, hdrop⟩ := Text.exists_dropEndWhile isWide u
      have hkept : '@' ∉ Text.dropEndWhile isWide u := by
        intro hin
        rw [hdrop] at hu
        exact hu (List.mem_append_left _ hin)
      simpa [keywordsIn?] using keywordsIn?_append hkept []
    rw [hnone t hat, hnone (before ++ t) (by simp [h, hat])]

/-- A name is cut after its base. -/
theorem baseOf_append {base after : Text} (h : IsBase base) (hafter : EndsBase after) : baseOf (base ++ after) = base := by
  rw [baseOf, h.trim_append]
  exact takeWhile_append (fun c hc => (h.not_special c hc).2) hafter.dropEndWhile

/-- The keywords of a name stand after its base. -/
theorem keywordsOf?_append {base : Text} (h : IsBase base) (after : Text) :
    keywordsOf? (base ++ after) = keywordsIn? (Text.dropEndWhile isWide after) := by
  have hat : '@' ∉ base := fun hin => (h.not_special '@' hin).2.1 rfl
  rw [keywordsOf?, h.trim_append, keywordsIn?_append hat]

/-- What has the parts of a full name before its keywords and its codeset is read. -/
theorem parse_append {n : NameParts} {base after : Text} (h : base.splitOnP isSeparator = n.list) (hafter : EndsBase after) :
    parse (base ++ after) = .ok (n.locale (keywordsIn? (Text.dropEndWhile isWide after))) := by
  have hbase := isBase_of_splitOnP h
  rw [parse_of_list (n := n) (by rw [partsOf, baseOf_append hbase hafter, h]), keywordsOf?_append hbase]

/-! ## Locales in canonical form -/

/-- Whether a locale has the parts of a full name in canonical case, and keywords that are not empty and do not end with white
space. -/
structure IsCanonical (l : Locale) : Prop where
  parts : ∃ n : NameParts, l = n.locale l.keywords
  keywords : ∀ k ∈ l.keywords, k ≠ [] ∧ Text.dropEndWhile isWide k = k

/-- Keywords are not empty and stand after an `@`. -/
theorem exists_of_keywordsIn? {t k : Text} (h : keywordsIn? t = some k) : k ≠ [] ∧ ∃ before, t = before ++ '@' :: k := by
  have hcut := List.takeWhile_append_dropWhile (p := (· != '@')) (l := t)
  have hhead := List.head?_dropWhile_not (· != '@') t
  rw [keywordsIn?] at h
  cases hrest : t.dropWhile (· != '@') with
  | nil =>
    rw [hrest] at h
    cases h
  | cons c rest =>
    rw [hrest] at h hcut hhead
    obtain rfl : c = '@' := by simpa using hhead
    by_cases hk : rest = []
    · simp [hk] at h
    · obtain rfl : rest = k := by simpa [hk] using h
      exact ⟨hk, _, hcut.symm⟩

/-- The keywords of a name do not end with white space. -/
theorem keywordsOf?_spec {value k : Text} (h : keywordsOf? value = some k) : k ≠ [] ∧ Text.dropEndWhile isWide k = k := by
  obtain ⟨hk, before, hvalue⟩ := exists_of_keywordsIn? h
  refine ⟨hk, ?_⟩
  have htrim : Text.dropEndWhile isWide value.trim = value.trim := Text.dropEndWhile_dropEndWhile _ _
  rw [hvalue, Text.dropEndWhile_append_cons _ _ (by decide)] at htrim
  simpa using htrim

/-- A locale that was read is in canonical form. -/
theorem isCanonical_of_parse {value : Text} {l : Locale} (h : parse value = .ok l) : l.IsCanonical := by
  obtain ⟨n, -, rfl⟩ := parse_eq_ok_iff.1 h
  exact ⟨⟨n, rfl⟩, fun k hk => keywordsOf?_spec hk⟩

/-- The parts of a locale in the order in which they are written. -/
def parts (l : Locale) : List Text := l.language :: (l.script.toList ++ l.region :: l.variants)

/-- The name of a locale with a separator between its parts. -/
def named (separator : Char) (l : Locale) : Text := Text.joinWith [separator] l.parts ++ optionalPart '@' l.keywords

/-- The parts of a locale are those that it was read from but for case. -/
theorem NameParts.alike_parts (n : NameParts) (keywords : Option Text) :
    List.Forall₂ (fun s t => Text.lower s = Text.lower t) n.list (n.locale keywords).parts := by
  refine .cons (by simp [locale]) ?_
  cases hscript : n.script with
  | none => simp [locale, hscript]
  | some s => simp [locale, hscript]

/-- Parts without separators are found again where one was put between two of them. -/
theorem splitOnP_joinWith {separator : Char} (hseparator : isSeparator separator = true) {parts : List Text} (hne : parts ≠ [])
    (h : ∀ part ∈ parts, ∀ c ∈ part, isSeparator c = false) : (Text.joinWith [separator] parts).splitOnP isSeparator = parts := by
  induction parts with
  | nil => exact absurd rfl hne
  | cons first rest ih =>
    obtain ⟨hfirst, hrest⟩ := List.forall_mem_cons.1 h
    cases rest with
    | nil => rw [Text.joinWith_singleton, List.splitOnP_eq_singleton hfirst]
    | cons second rest =>
      rw [Text.joinWith_cons_cons, List.singleton_append, List.splitOnP_append_cons _ _ hseparator,
        List.splitOnP_eq_singleton hfirst, ih (List.cons_ne_nil _ _) hrest]
      rfl

/-- A locale in canonical form is read back, whichever separator is between its parts. -/
theorem parse_named {separator : Char} (hseparator : isSeparator separator = true) {l : Locale} (h : l.IsCanonical) :
    parse (named separator l) = .ok l := by
  obtain ⟨⟨n, hn⟩, hkeywords⟩ := h
  obtain ⟨n', hlist, hlocale⟩ := n.exists_of_alike (n.alike_parts l.keywords)
  rw [← hn] at hlist
  have hne : l.parts ≠ [] := List.cons_ne_nil _ _
  have hbase : (Text.joinWith [separator] l.parts).splitOnP isSeparator = n'.list := by
    rw [hlist, splitOnP_joinWith hseparator hne]
    intro part hpart c hc
    rw [← hlist] at hpart
    exact Text.of_isAlphanum (p := fun c => isSeparator c = false) (by decide +kernel) ((n'.isVariant_of_mem_list part hpart).2 c hc)
  have hafter : EndsBase (optionalPart '@' l.keywords) ∧
      keywordsIn? (Text.dropEndWhile isWide (optionalPart '@' l.keywords)) = l.keywords := by
    cases hk : l.keywords with
    | none => exact ⟨nofun, rfl⟩
    | some k =>
      obtain ⟨hne, hend⟩ := hkeywords k hk
      have hdrop := Text.dropEndWhile_append_cons [] k (p := isWide) (c := '@') (by decide)
      rw [List.nil_append, List.nil_append, hend] at hdrop
      refine ⟨by simp [EndsBase, optionalPart], ?_⟩
      rw [optionalPart, hdrop]
      simp [keywordsIn?, hne]
  rw [named, parse_append hbase hafter.1, hafter.2, hlocale, ← hn]

/-- The locale of a language and a region alone. -/
def bare (l : Locale) : Locale := ⟨l.language, none, l.region, [], none⟩

theorem IsCanonical.bare {l : Locale} (h : l.IsCanonical) : l.bare.IsCanonical := by
  obtain ⟨⟨n, hn⟩, -⟩ := h
  refine ⟨⟨⟨n.language, none, n.region, [], n.isLanguage, nofun, n.isRegion, nofun⟩, ?_⟩, nofun⟩
  rw [hn]
  rfl

theorem tag_eq_named (l : Locale) : l.tag = named '_' l := by
  rw [named, parts, Text.joinWith_cons]
  cases hscript : l.script <;> simp [tag, optionalPart, hscript]

theorem posix_eq_named (l : Locale) : l.posix = named '_' l.bare := by
  simp [named, parts, bare, posix, optionalPart, Text.joinWith_cons]

theorem web_eq_named (l : Locale) : l.web = named '-' l.bare := by
  simp [named, parts, bare, web, optionalPart, Text.joinWith_cons]

/-! ## Names that are read alike -/

/-- Whether two characters say the same in a name: they are the same but for case, or both are separators. -/
def SameSign (c d : Char) : Prop := c.toLower = d.toLower ∨ (isSeparator c = true ∧ isSeparator d = true)

instance (c d : Char) : Decidable (SameSign c d) := inferInstanceAs (Decidable (_ ∨ _))

theorem isSeparator_toLower (c : Char) : isSeparator c.toLower = isSeparator c := by
  by_cases h : c.isUpper
  · exact Text.of_isAlphanum (p := fun c => isSeparator c.toLower = isSeparator c) (by decide +kernel)
      (by simp [Char.isAlphanum, Char.isAlpha, h])
  · rw [Char.toLower_eq_of_not_isUpper h]

/-- Texts that say the same have parts that are the same but for case. -/
theorem forall₂_splitOnP {base base' : Text} (h : List.Forall₂ SameSign base base') :
    List.Forall₂ (fun s t => Text.lower s = Text.lower t) (base.splitOnP isSeparator) (base'.splitOnP isSeparator) := by
  induction h with
  | nil => simp
  | @cons c d rest rest' hsign _ ih =>
    obtain ⟨first, others, hr⟩ := List.exists_cons_of_ne_nil (List.splitOnP_ne_nil isSeparator rest)
    obtain ⟨first', others', hr'⟩ := List.exists_cons_of_ne_nil (List.splitOnP_ne_nil isSeparator rest')
    rw [List.splitOnP_cons_eq_if_modifyHead, List.splitOnP_cons_eq_if_modifyHead, hr, hr']
    rw [hr, hr'] at ih
    have hsame : isSeparator c = isSeparator d := by
      rcases hsign with hlower | ⟨hc, hd⟩
      · rw [← isSeparator_toLower, hlower, isSeparator_toLower]
      · rw [hc, hd]
    by_cases hd : isSeparator d = true
    · rw [hsame, if_pos hd, if_pos hd]
      exact .cons rfl ih
    · have hlower : c.toLower = d.toLower := hsign.resolve_right fun h => hd h.2
      obtain ⟨hfirst, hothers⟩ := List.forall₂_cons.1 ih
      rw [hsame, if_neg hd, if_neg hd, List.modifyHead_cons, List.modifyHead_cons]
      refine .cons ?_ hothers
      rw [Text.lower] at hfirst ⊢
      simp [hlower, hfirst, Text.lower]

/-- A name that says the same before its keywords and its codeset is read as the same, and so it is with a codeset put there. -/
theorem parse_of_alike {value base after base' : Text} {l : Locale} (h : parse value = .ok l) (htrim : value.trim = value)
    (hvalue : value = base ++ after) (hbase : ∀ c ∈ base, c ≠ '@' ∧ c ≠ '.') (hafter : EndsBase after)
    (hsame : List.Forall₂ SameSign base base') :
    parse (base' ++ after) = .ok l ∧ ∀ codeset, '@' ∉ codeset → parse (base' ++ '.' :: codeset ++ after) = .ok l := by
  obtain ⟨n, hn, rfl⟩ := parse_eq_ok_iff.1 h
  have hcut : baseOf value = base := by
    rw [baseOf, htrim, hvalue]
    exact takeWhile_append hbase hafter
  rw [partsOf, hcut] at hn
  have hkeywords := keywordsOf?_append (isBase_of_splitOnP hn) after
  obtain ⟨n', hlist, hlocale⟩ := n.exists_of_alike (hn ▸ forall₂_splitOnP hsame)
  constructor
  · rw [parse_append hlist.symm hafter, hlocale, hvalue, hkeywords]
  · intro codeset hcodeset
    have hat : '@' ∉ '.' :: codeset := by simp [hcodeset]
    have hstart : EndsBase ('.' :: codeset ++ after) := by simp [EndsBase]
    rw [List.append_assoc, parse_append hlist.symm hstart, keywordsIn?_dropEndWhile_append hat, hlocale, hvalue, hkeywords]

/-- The full name of a locale that was read is read as the locale, and each of its short names as its language and its region alone.
Locales that were read are the same exactly when their full names are. A name without white space around it is read as the same when
letters before its keywords and its codeset change their case, or separators are exchanged, or a codeset is put after them. -/
theorem parse_names {value : Text} {l : Locale} (h : parse value = .ok l) :
    parse l.tag = .ok l ∧
    parse l.posix = .ok ⟨l.language, none, l.region, [], none⟩ ∧
    parse l.web = .ok ⟨l.language, none, l.region, [], none⟩ ∧
    (∀ value' l', parse value' = .ok l' → (l' = l ↔ l'.tag = l.tag)) ∧
    (value.trim = value → ∀ base after base', value = base ++ after → (∀ c ∈ base, c ≠ '@' ∧ c ≠ '.') →
      (∀ c ∈ after.head?, c = '@' ∨ c = '.') → List.Forall₂ SameSign base base' →
      parse (base' ++ after) = .ok l ∧ ∀ codeset, '@' ∉ codeset → parse (base' ++ '.' :: codeset ++ after) = .ok l) := by
  have hunderscore : isSeparator '_' = true := by decide
  have hhyphen : isSeparator '-' = true := by decide
  have htag : ∀ {value' : Text} {l' : Locale}, parse value' = .ok l' → parse l'.tag = .ok l' := by
    intro value' l' h'
    rw [tag_eq_named, parse_named hunderscore (isCanonical_of_parse h')]
  have hbare := (isCanonical_of_parse h).bare
  refine ⟨htag h, ?_, ?_, ?_, ?_⟩
  · rw [posix_eq_named]
    exact parse_named hunderscore hbare
  · rw [web_eq_named]
    exact parse_named hhyphen hbare
  · intro value' l' h'
    constructor
    · rintro rfl
      rfl
    · intro hsame
      have hread := htag h'
      rw [hsame, htag h] at hread
      exact (Except.ok.inj hread).symm
  · intro htrim base after base' hvalue hbase hafter hsame
    exact parse_of_alike h htrim hvalue hbase hafter hsame

/-- A name with a script, a variant, a codeset and keywords: its full and its short names, another spelling, and one more codeset. -/
theorem parse_names_serbian :
    let l : Locale := ⟨"sr", some "Latn", "RS", ["EKAVSK"], some "currency=RSD"⟩
    let short : Locale := ⟨"sr", none, "RS", [], none⟩
    parse "sr-latn-rs-ekavsk.UTF-8@currency=RSD" = .ok l ∧ parse "sr_Latn_RS_EKAVSK@currency=RSD" = .ok l ∧
      parse "sr_RS" = .ok short ∧ parse "sr-RS" = .ok short ∧ (short = l ↔ short.tag = l.tag) ∧
      parse "SR_Latn_RS-Ekavsk.UTF-8@currency=RSD" = .ok l ∧ parse "SR_Latn_RS-Ekavsk.latin2.UTF-8@currency=RSD" = .ok l := by
  intro l short
  have hread : parse "sr-latn-rs-ekavsk.UTF-8@currency=RSD" = .ok l := by decide +kernel
  have htrim : Text.trim "sr-latn-rs-ekavsk.UTF-8@currency=RSD" = "sr-latn-rs-ekavsk.UTF-8@currency=RSD" := by decide +kernel
  have hsame : List.Forall₂ SameSign "sr-latn-rs-ekavsk".toList "SR_Latn_RS-Ekavsk".toList := by decide +kernel
  obtain ⟨htag, hposix, hweb, hinj, halike⟩ := parse_names hread
  obtain ⟨hcase, hcodeset⟩ := halike htrim "sr-latn-rs-ekavsk" ".UTF-8@currency=RSD" "SR_Latn_RS-Ekavsk" rfl (by decide +kernel)
    (by decide +kernel) hsame
  exact ⟨hread, htag, hposix, hweb, hinj _ short hposix, hcase, hcodeset "latin2" (by decide +kernel)⟩

end Locale

end LocalePages
