import LocalePages.Proofs.ReadLocales

/-!
# Choices of a locale

One of the locales of a project is selected, at first the first one, and then by choices that succeed or fail. A choice selects one of
the locales and changes nothing else, or it fails and changes nothing (`Locales.choose_cases`), so that after any choices the locales
are those that the project has named, each once by its language and region (`Locales.chooseAll_spec`).
-/

namespace LocalePages

namespace Locales

/-! ## Choices -/

/-- A choice of a locale: by its name, or by its language alone. -/
inductive Choice where
  | name (value : Text)
  | language (value : Text)
  deriving DecidableEq, Repr

/-- What a choice answers, and the locales after it. A choice that fails leaves them as they are. -/
def choose (ls : Locales) (choice : Choice) : Except LocaleError Locale × Locales :=
  let chosen := match choice with
    | .name value => ls.select value
    | .language value => ls.selectLanguage value
  match chosen with
  | .ok after => (.ok after.selected, after)
  | .error e => (.error e, ls)

/-- The locales after some choices, one after the other. -/
def chooseAll (ls : Locales) (choices : List Choice) : Locales := choices.foldl (fun ls choice => (ls.choose choice).2) ls

/-- The locales with the one at a place selected. -/
def withSelected (ls : Locales) (i : Nat) (hi : i < ls.tags.length) : Locales := { ls with current := i, current_lt := hi }

/-- The locales of a language. -/
def ofLanguage (ls : Locales) (language : Text) : List Locale := ls.tags.filter fun t => t.language == language

variable {ls : Locales} {value language : Text} {l t : Locale}

/-- The place of the first locale of a class is where that locale is selected. -/
theorem place?_cases (ls : Locales) (p : Locale → Bool) :
    (ls.place? p = none ∧ ls.tags.find? p = none) ∨
      ∃ i, ls.place? p = some i ∧ ls.tags.find? p = some (ls.withSelected i i.isLt).selected := by
  rw [List.find?_eq_bind_findIdx?_getElem?]
  unfold place?
  split
  · rename_i i hi
    obtain ⟨hlt, -⟩ := List.findIdx?_eq_some_iff_getElem.1 hi
    refine Or.inr ⟨⟨i, hlt⟩, rfl, ?_⟩
    rw [hi, Option.bind_some, List.getElem?_eq_getElem hlt]
    rfl
  · rename_i hnone
    refine Or.inl ⟨rfl, ?_⟩
    rw [hnone, Option.bind_none]

/-- The first locale of a language is one of the language. -/
theorem mem_ofLanguage_of_find? (h : (ls.tags.find? fun t => t.language == language) = some t) : t ∈ ls.ofLanguage language := by
  have ht : (t.language == language) = true := by simpa using List.find?_some h
  exact List.mem_filter.2 ⟨List.mem_of_find?_eq_some h, ht⟩

/-! ## What a choice does -/

/-- A choice by a text that is no name answers why it is none. -/
theorem choose_name_of_error {e : LocaleError} (h : Locale.parse value = .error e) : ls.choose (.name value) = (.error e, ls) := by
  rw [choose, select, h]

/-- A choice by the name of a locale that is not there answers that it is not supported. -/
theorem choose_name_of_find?_eq_none (h : Locale.parse value = .ok l) (hnone : (ls.tags.find? fun t => t.posix == l.posix) = none) :
    ls.choose (.name value) = (.error (.unsupported value ls.listing), ls) := by
  rcases ls.place?_cases fun t => t.posix == l.posix with ⟨hplace, -⟩ | ⟨i, -, hfind⟩
  · rw [choose, select, h]
    simp only [hplace]
  · rw [hnone] at hfind
    cases hfind

/-- A choice by the name of a locale that is there selects it. -/
theorem choose_name_of_find? (h : Locale.parse value = .ok l) (hfind : (ls.tags.find? fun t => t.posix == l.posix) = some t) :
    ∃ i hi, (ls.withSelected i hi).selected = t ∧ ls.choose (.name value) = (.ok t, ls.withSelected i hi) := by
  rcases ls.place?_cases fun t => t.posix == l.posix with ⟨-, hnone⟩ | ⟨i, hplace, hthere⟩
  · rw [hnone] at hfind
    cases hfind
  · obtain rfl := Option.some.inj (hthere.symm.trans hfind)
    refine ⟨i, i.isLt, rfl, ?_⟩
    rw [choose, select, h]
    simp only [hplace]
    rfl

/-- A choice by the language of several locales answers that it is ambiguous. -/
theorem choose_language_of_several (h : 2 ≤ (ls.ofLanguage (Text.lower value.trim)).length) :
    ls.choose (.language value) = (.error (.ambiguous (Text.lower value.trim) ls.listing), ls) := by
  have hcount : ls.tags.countP (fun t => t.language == Text.lower value.trim) > 1 := by
    rw [List.countP_eq_length_filter]
    exact h
  simp only [choose, selectLanguage, if_pos hcount]

/-- A choice by the language of no locale answers that it is not supported. -/
theorem choose_language_of_none (h : ls.ofLanguage (Text.lower value.trim) = []) :
    ls.choose (.language value) = (.error (.unsupported (Text.lower value.trim) ls.listing), ls) := by
  have hcount : ls.tags.countP (fun t => t.language == Text.lower value.trim) = 0 := by
    rw [List.countP_eq_length_filter]
    exact congrArg List.length h
  rcases ls.place?_cases fun t => t.language == Text.lower value.trim with ⟨hplace, -⟩ | ⟨i, -, hfind⟩
  · simp only [choose, selectLanguage, hcount, hplace]
    rfl
  · have hmem := mem_ofLanguage_of_find? hfind
    rw [h] at hmem
    cases hmem

/-- A choice by the language of one locale selects it. -/
theorem choose_language_of_one (h : ls.ofLanguage (Text.lower value.trim) = [t]) :
    ∃ i hi, (ls.withSelected i hi).selected = t ∧ ls.choose (.language value) = (.ok t, ls.withSelected i hi) := by
  have hcount : ls.tags.countP (fun t => t.language == Text.lower value.trim) = 1 := by
    rw [List.countP_eq_length_filter]
    exact congrArg List.length h
  have hmem : t ∈ ls.ofLanguage (Text.lower value.trim) := by simp [h]
  obtain ⟨hin, ht⟩ := List.mem_filter.1 hmem
  rcases ls.place?_cases fun t => t.language == Text.lower value.trim with ⟨-, hnone⟩ | ⟨i, hplace, hfind⟩
  · exact absurd ht (List.find?_eq_none.1 hnone t hin)
  · have hsame := mem_ofLanguage_of_find? hfind
    rw [h, List.mem_singleton] at hsame
    refine ⟨i, i.isLt, hsame, ?_⟩
    simp only [choose, selectLanguage, hcount, hplace, ← hsame]
    rfl

/-- A choice fails and changes nothing, or it selects one of the locales. -/
theorem choose_cases (ls : Locales) (choice : Choice) :
    (∃ e, ls.choose choice = (.error e, ls)) ∨
      ∃ i hi, ls.choose choice = (.ok (ls.withSelected i hi).selected, ls.withSelected i hi) := by
  cases choice with
  | name value =>
    cases hparse : Locale.parse value with
    | error e => exact Or.inl ⟨e, choose_name_of_error hparse⟩
    | ok l =>
      cases hfind : ls.tags.find? fun t => t.posix == l.posix with
      | none => exact Or.inl ⟨_, choose_name_of_find?_eq_none hparse hfind⟩
      | some t =>
        obtain ⟨i, hi, rfl, hchoose⟩ := choose_name_of_find? hparse hfind
        exact Or.inr ⟨i, hi, hchoose⟩
  | language value =>
    rcases hmembers : ls.ofLanguage (Text.lower value.trim) with _ | ⟨t, _ | ⟨t', rest⟩⟩
    · exact Or.inl ⟨_, choose_language_of_none hmembers⟩
    · obtain ⟨i, hi, rfl, hchoose⟩ := choose_language_of_one hmembers
      exact Or.inr ⟨i, hi, hchoose⟩
    · exact Or.inl ⟨_, choose_language_of_several (by simp [hmembers])⟩

/-- A choice keeps the locales and the one of source pages. -/
theorem tags_choose (ls : Locales) (choice : Choice) :
    (ls.choose choice).2.tags = ls.tags ∧ (ls.choose choice).2.default = ls.default := by
  rcases ls.choose_cases choice with ⟨e, h⟩ | ⟨i, hi, h⟩ <;> rw [h] <;> exact ⟨rfl, rfl⟩

/-- Choices keep the locales and the one of source pages. -/
theorem tags_chooseAll (ls : Locales) (choices : List Choice) :
    (ls.chooseAll choices).tags = ls.tags ∧ (ls.chooseAll choices).default = ls.default := by
  induction choices generalizing ls with
  | nil => exact ⟨rfl, rfl⟩
  | cons choice choices ih =>
    obtain ⟨htags, hdefault⟩ := ih (ls.choose choice).2
    obtain ⟨hstep, hstepDefault⟩ := ls.tags_choose choice
    exact ⟨htags.trans hstep, hdefault.trans hstepDefault⟩

/-! ## After any choices -/

/-- A locale of this name is there when one of the same short name is. -/
theorem contains_iff : ls.contains l = true ↔ ∃ t ∈ ls.tags, t.posix = l.posix := by
  simp [contains]

/-- A choice by a name succeeds exactly when it names a locale that is there. -/
theorem exists_choose_name_iff :
    (∃ t, (ls.choose (.name value)).1 = .ok t) ↔ ∃ l, Locale.parse value = .ok l ∧ ls.contains l = true := by
  constructor
  · rintro ⟨t, ht⟩
    cases hparse : Locale.parse value with
    | error e =>
      rw [choose_name_of_error hparse] at ht
      cases ht
    | ok l =>
      refine ⟨l, rfl, ?_⟩
      cases hfind : ls.tags.find? fun t => t.posix == l.posix with
      | none =>
        rw [choose_name_of_find?_eq_none hparse hfind] at ht
        cases ht
      | some t' =>
        have hsame : t'.posix = l.posix := by simpa using List.find?_some hfind
        exact contains_iff.2 ⟨t', List.mem_of_find?_eq_some hfind, hsame⟩
  · rintro ⟨l, hparse, hcontains⟩
    obtain ⟨t, ht, hsame⟩ := contains_iff.1 hcontains
    cases hfind : ls.tags.find? fun t => t.posix == l.posix with
    | none => exact absurd (by simpa using hsame) (List.find?_eq_none.1 hfind t ht)
    | some t' =>
      obtain ⟨i, hi, -, hchoose⟩ := choose_name_of_find? hparse hfind
      exact ⟨t', by rw [hchoose]⟩

/-- A choice by a name selects the locale of this name. -/
theorem choose_name_of_mem (hnodup : (ls.tags.map Locale.posix).Nodup) (hparse : Locale.parse value = .ok l) (ht : t ∈ ls.tags)
    (hsame : t.posix = l.posix) :
    (ls.choose (.name value)).1 = .ok t ∧ (ls.choose (.name value)).2.selected = t := by
  obtain ⟨i, hi, hselected, hchoose⟩ := choose_name_of_find? hparse (find?_posix_of_mem hnodup ht hsame)
  rw [hchoose]
  exact ⟨rfl, hselected⟩

/-- A choice by a language is settled by how many locales are of this language. -/
theorem choose_language_cases (ls : Locales) (value : Text) :
    let language := Text.lower value.trim
    (ls.ofLanguage language = [] ∧ (ls.choose (.language value)).1 = .error (.unsupported language ls.listing)) ∨
      (∃ t, ls.ofLanguage language = [t] ∧ (ls.choose (.language value)).1 = .ok t ∧ (ls.choose (.language value)).2.selected = t) ∨
      (2 ≤ (ls.ofLanguage language).length ∧ (ls.choose (.language value)).1 = .error (.ambiguous language ls.listing)) := by
  intro language
  rcases hmembers : ls.ofLanguage language with _ | ⟨t, _ | ⟨t', rest⟩⟩
  · exact Or.inl ⟨rfl, by rw [choose_language_of_none hmembers]⟩
  · obtain ⟨i, hi, hselected, hchoose⟩ := choose_language_of_one hmembers
    refine Or.inr (Or.inl ⟨t, rfl, ?_⟩)
    rw [hchoose]
    exact ⟨rfl, hselected⟩
  · have hseveral : 2 ≤ (ls.ofLanguage language).length := by simp [hmembers]
    refine Or.inr (Or.inr ⟨by simp, ?_⟩)
    rw [choose_language_of_several hseveral]

/-- A choice that fails changes nothing. -/
theorem choose_of_error {choice : Choice} {e : LocaleError} (h : (ls.choose choice).1 = .error e) : (ls.choose choice).2 = ls := by
  rcases ls.choose_cases choice with ⟨e', hchoose⟩ | ⟨i, hi, hchoose⟩
  · rw [hchoose]
  · rw [hchoose] at h
    cases h

/-- Whatever was chosen before, the locales are those that the project has named, in order of first occurrence and each once by its
language and region, and one of them is selected. A further choice that fails changes nothing. A choice by a name succeeds exactly
for the names of these locales, and selects the one that is named; a choice by a language succeeds exactly when one of them is of
the language, and selects it. Pages are generated for all of them but the one of source pages. -/
theorem chooseAll_spec {ids : List Text} {start : Locales} (h : ofIds ids = .ok start) (source : Locale) (choices : List Choice) :
    let ls := (start.withDefault source).chooseAll choices
    (ls.tags = start.tags ∧ ls.default = source) ∧
    (AreFirst ids ls.tags ∧ ls.tags ≠ [] ∧ (ls.tags.map Locale.posix).Nodup) ∧
    (ls.tags[ls.current]? = some ls.selected ∧ ls.selected ∈ ls.tags) ∧
    (∀ choice e, (ls.choose choice).1 = .error e → (ls.choose choice).2 = ls) ∧
    (∀ value, (∃ t, (ls.choose (.name value)).1 = .ok t) ↔ ∃ l, Locale.parse value = .ok l ∧ ls.contains l = true) ∧
    (∀ value l t, Locale.parse value = .ok l → t ∈ ls.tags → t.posix = l.posix →
      (ls.choose (.name value)).1 = .ok t ∧ (ls.choose (.name value)).2.selected = t) ∧
    (∀ value,
      let language := Text.lower value.trim
      (ls.ofLanguage language = [] ∧ (ls.choose (.language value)).1 = .error (.unsupported language ls.listing)) ∨
      (∃ t, ls.ofLanguage language = [t] ∧ (ls.choose (.language value)).1 = .ok t ∧ (ls.choose (.language value)).2.selected = t) ∨
      (2 ≤ (ls.ofLanguage language).length ∧ (ls.choose (.language value)).1 = .error (.ambiguous language ls.listing))) ∧
    ls.targets = ls.tags.eraseP (fun t => t.posix == source.posix) := by
  intro ls
  obtain ⟨htags, hdefault⟩ := (start.withDefault source).tags_chooseAll choices
  have hfirst : AreFirst ids ls.tags := by
    have hstart : AreFirst ids start.tags := areFirst_of_ofIds h
    exact htags ▸ hstart
  have hnodup := hfirst.nodup
  have hselected : ls.selected ∈ ls.tags := List.get_mem _ _
  have htargets : ls.targets = ls.tags.eraseP (fun t => t.posix == source.posix) := by
    have hsource : ls.default = source := hdefault
    rw [← filter_posix_eq_eraseP hnodup, ← hsource]
    rfl
  exact ⟨⟨htags, hdefault⟩, ⟨hfirst, List.ne_nil_of_mem hselected, hnodup⟩, ⟨List.getElem?_eq_getElem ls.current_lt, hselected⟩,
    fun choice e => choose_of_error, fun value => exists_choose_name_iff,
    fun value l t => choose_name_of_mem hnodup, ls.choose_language_cases, htargets⟩

/-- Of four names two are of one locale. English is ambiguous, so that the Czech locale stays selected. -/
theorem chooseAll_spec_czech :
    let american := Locale.standard
    let british : Locale := ⟨"en", none, "GB", [], none⟩
    let czech : Locale := ⟨"cs", none, "CZ", [], none⟩
    let start : Locales := ⟨[american, british, czech], 0, american, by decide⟩
    let ls := (start.withDefault british).chooseAll [.name "cs_CZ.UTF-8", .language "en", .name "de_DE"]
    ofIds ["en_US", "en-gb", "cs-CZ", "cs_cz"] = .ok start ∧ AreFirst ["en_US", "en-gb", "cs-CZ", "cs_cz"] ls.tags ∧
      ls.selected = czech ∧ (ls.choose (.language " EN ")).1 = .error (.ambiguous "en" "en_US, en_GB, cs_CZ") ∧
      (ls.choose (.name "EN-gb")).2.selected = british ∧ ls.targets = [american, czech] := by
  intro american british czech start ls
  have hstart : ofIds ["en_US", "en-gb", "cs-CZ", "cs_cz"] = .ok start := by rfl
  obtain ⟨-, ⟨hfirst, -⟩, -, -, -, hname, hlanguage, htargets⟩ := chooseAll_spec hstart british
    [.name "cs_CZ.UTF-8", .language "en", .name "de_DE"]
  have hambiguous : (ls.choose (.language " EN ")).1 = .error (.ambiguous "en" "en_US, en_GB, cs_CZ") := by
    rcases hlanguage " EN " with ⟨hnone, -⟩ | ⟨t, hone, -⟩ | ⟨-, hseveral⟩
    · exact absurd hnone (by decide +kernel)
    · have htwo : (ls.ofLanguage (Text.lower (Text.trim " EN "))).length = 2 := by decide +kernel
      exact absurd ((congrArg List.length hone).symm.trans htwo) (by simp)
    · exact hseveral
  exact ⟨hstart, hfirst, by decide +kernel, hambiguous, (hname "EN-gb" british british (by rfl) (by decide +kernel) rfl).2,
    htargets.trans (by decide +kernel)⟩

end Locales

end LocalePages
