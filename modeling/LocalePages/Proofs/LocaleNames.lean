import LocalePages.Proofs.Paths
import LocalePages.Proofs.ReadLocales
import LocalePages.Run.Basic

/-!
# Names with locales in them

A locale that was read has letters and digits in its language and its region and nothing else (`Locale.isPlain_of_parse`), and so
have all locales of a project (`RunSetting.isPlain_of_mem_tags`). So the names of files that are made from it are proper names,
the variants of pages do not get the ending of catalogs, and neither they nor the catalogs are named as by-products
(`Locale.IsPlain.isName_localizedName`).
-/

namespace LocalePages

/-! ## Letters and digits -/

namespace Text

/-- Whether a text is made of letters and digits of ASCII, two at least. -/
def IsPlain (t : Text) : Prop := 2 ≤ t.length ∧ ∀ c ∈ t, c.isAlphanum = true

/-- A letter or digit is a letter or digit in the other case too. -/
theorem isAlphanum_of_case {c : Char} (h : c.isAlphanum = true) : c.toLower.isAlphanum = true ∧ c.toUpper.isAlphanum = true :=
  of_isAlphanum (p := fun c => c.toLower.isAlphanum = true ∧ c.toUpper.isAlphanum = true) (by decide +kernel) h

theorem IsPlain.lower {t : Text} (h : t.IsPlain) : (Text.lower t).IsPlain := by
  refine ⟨by rw [Text.lower, List.length_map]; exact h.1, fun c hc => ?_⟩
  obtain ⟨d, hd, rfl⟩ := List.mem_map.1 hc
  exact (isAlphanum_of_case (h.2 d hd)).1

theorem IsPlain.upper {t : Text} (h : t.IsPlain) : (Text.upper t).IsPlain := by
  refine ⟨by rw [Text.upper, List.length_map]; exact h.1, fun c hc => ?_⟩
  obtain ⟨d, hd, rfl⟩ := List.mem_map.1 hc
  exact (isAlphanum_of_case (h.2 d hd)).2

/-- What a text ends with is told by its end. -/
theorem endsWith_append (before : Text) {after ending : Text} (h : ending.length ≤ after.length) :
    endsWith (before ++ after) ending = endsWith after ending := by
  rw [endsWith, endsWith, Bool.eq_iff_iff, List.isSuffixOf_iff_suffix, List.isSuffixOf_iff_suffix]
  exact ⟨fun hsuffix => List.suffix_of_suffix_length_le hsuffix (List.suffix_append _ _) h,
    fun hsuffix => hsuffix.trans (List.suffix_append _ _)⟩

/-- A text that has an ending has no other one that the ending has not. -/
theorem endsWith_of_endsWith {t after ending : Text} (h : endsWith t after = true) (hlength : ending.length ≤ after.length) :
    endsWith t ending = endsWith after ending := by
  obtain ⟨before, rfl⟩ := List.isSuffixOf_iff_suffix.1 h
  exact endsWith_append before hlength

/-- A text does not end with a character that is not in it. -/
theorem endsWith_eq_false {t ending : Text} {c : Char} (hc : c ∈ ending) (ht : c ∉ t) : endsWith t ending = false := by
  rw [endsWith, ← Bool.not_eq_true, List.isSuffixOf_iff_suffix]
  exact fun hsuffix => ht (hsuffix.subset hc)

/-- A character that is no letter and no digit is not in a plain text. -/
theorem IsPlain.not_mem {t : Text} (h : t.IsPlain) {c : Char} (hc : c.isAlphanum = false) : c ∉ t := by
  intro hin
  rw [h.2 c hin] at hc
  cases hc

/-! ## By-products -/

/-- Whether a name is that of a by-product, a file that compiling modules has no use for: of a compiled catalog, or of another file with
an extension that is no page, no variant of a page, no catalog and no template. -/
def isByproduct (name : Text) : Bool :=
  endsWith name ".mo" || (List.contains name '.' && !holds ".html" name && !endsWith name ".po" && !endsWith name ".pot")

/-- A name without a dot is none of a by-product. -/
theorem isByproduct_of_not_mem {name : Text} (h : '.' ∉ name) : isByproduct name = false := by
  have hdot : List.contains name '.' = false := by simpa using h
  rw [isByproduct, endsWith_eq_false (c := '.') (by decide) h, hdot]
  rfl

/-- The name of a page or of a variant of one is none of a by-product. -/
theorem isByproduct_of_holds {name : Text} (hcompiled : endsWith name ".mo" = false) (h : holds ".html" name = true) :
    isByproduct name = false := by
  rw [isByproduct, hcompiled, h]
  simp

/-- The name of a page is none of a by-product. -/
theorem isByproduct_of_page {name : Text} (h : endsWith name ".html" = true) : isByproduct name = false := by
  refine isByproduct_of_holds ?_ (holds_iff.2 (List.isSuffixOf_iff_suffix.1 h).isInfix)
  rw [endsWith_of_endsWith h (by decide)]
  decide

/-- The name of a catalog is none of a by-product. -/
theorem isByproduct_of_catalog {name : Text} (h : endsWith name ".po" = true) : isByproduct name = false := by
  have hcompiled : endsWith name ".mo" = false := by
    rw [endsWith_of_endsWith h (by decide)]
    decide
  rw [isByproduct, hcompiled, h]
  simp

end Text

/-! ## Locales that are read -/

namespace Locale

/-- Whether the language and the region of a locale are plain. -/
def IsPlain (l : Locale) : Prop := l.language.IsPlain ∧ l.region.IsPlain

theorem isPlain_of_isLetters {low high : Nat} (hlow : 2 ≤ low) {t : Text} (h : isLetters low high t = true) : t.IsPlain := by
  simp only [isLetters, Bool.and_eq_true, decide_eq_true_eq, List.all_eq_true] at h
  exact ⟨hlow.trans h.1.1, fun c hc => by simp [Char.isAlphanum, h.2 c hc]⟩

theorem isPlain_of_isNumber {t : Text} (h : isNumber t = true) : t.IsPlain := by
  simp only [isNumber, Bool.and_eq_true, beq_iff_eq, List.all_eq_true] at h
  exact ⟨by omega, fun c hc => by simp [Char.isAlphanum, h.2 c hc]⟩

/-- A region that parts have told is plain. -/
theorem isPlain_of_add? {p p' : Parts} {part : Text} (h : p.add? part = some p')
    (hp : ∀ region, p.region = some region → region.IsPlain) : ∀ region, p'.region = some region → region.IsPlain := by
  unfold Parts.add? at h
  split at h
  · cases h
    exact hp
  · split at h
    · rename_i hpart
      cases h
      rintro _ ⟨⟩
      rw [Bool.and_eq_true, Bool.or_eq_true] at hpart
      exact hpart.2.elim (fun hletters => (isPlain_of_isLetters (Nat.le_refl 2) hletters).upper)
        fun hnumber => (isPlain_of_isNumber hnumber).upper
    · split at h
      · cases h
        exact hp
      · cases h

/-- A locale that was read is plain. -/
theorem isPlain_of_parse {value : Text} {l : Locale} (h : parse value = .ok l) : l.IsPlain := by
  have hparts : ∀ (rest : List Text) (p p' : Parts), rest.foldlM Parts.add? p = some p' →
      (∀ region, p.region = some region → region.IsPlain) → ∀ region, p'.region = some region → region.IsPlain := by
    intro rest
    induction rest with
    | nil =>
      rintro p p' ⟨⟩ hp
      exact hp
    | cons part rest ih =>
      intro p p' hfold hp
      rw [List.foldlM_cons] at hfold
      obtain ⟨next, hnext, hrest⟩ := Option.bind_eq_some_iff.1 hfold
      exact ih next p' hrest (isPlain_of_add? hnext hp)
  unfold parse at h
  dsimp only at h
  split at h
  · cases h
  · split at h
    · cases h
    · split at h
      · cases h
      · rename_i hlanguage
        split at h
        · cases h
        · rename_i parts hfold
          split at h
          · cases h
          · rename_i region hregion
            cases h
            exact ⟨(isPlain_of_isLetters (Nat.le_refl 2) (by simpa using hlanguage)).lower,
              hparts _ _ _ hfold nofun region hregion⟩

/-! ## Names of files -/

variable {l : Locale}

/-- No dot and no slash is in the name of a plain locale. -/
theorem IsPlain.not_mem_posix (h : l.IsPlain) : '.' ∉ l.posix ∧ '/' ∉ l.posix := by
  simp [posix, h.1.not_mem, h.2.not_mem]

/-- No dot and no slash is in the name of a plain locale in file names. -/
theorem IsPlain.not_mem_web (h : l.IsPlain) : '.' ∉ l.web ∧ '/' ∉ l.web := by
  simp [web, h.1.not_mem, h.2.not_mem]

/-- A text without slashes of three characters or more is a name. -/
theorem isName_of_length {t : Text} (hslash : '/' ∉ t) (hlength : 3 ≤ t.length) : Path.IsName t := by
  refine ⟨hslash, ?_, ?_⟩
  · rw [Path.isIdle, Bool.or_eq_false_iff, beq_eq_false_iff_ne]
    constructor
    · rw [List.isEmpty_eq_false_iff]
      rintro rfl
      simp at hlength
    · rintro rfl
      simp at hlength
  · rintro rfl
    simp at hlength

theorem IsPlain.length_posix (h : l.IsPlain) : 5 ≤ l.posix.length := by
  have hlanguage := h.1.1
  have hregion := h.2.1
  simp only [posix, List.length_append]
  change 5 ≤ l.language.length + 1 + l.region.length
  omega

theorem IsPlain.length_web (h : l.IsPlain) : 5 ≤ l.web.length := by
  have hlanguage := h.1.1
  have hregion := h.2.1
  simp only [web, List.length_append]
  change 5 ≤ l.language.length + 1 + l.region.length
  omega

/-- The folder of a plain locale has a proper name, which is not that of a by-product. -/
theorem IsPlain.isName_posix (h : l.IsPlain) : Path.IsName l.posix ∧ Text.isByproduct l.posix = false := by
  have hlength := h.length_posix
  exact ⟨isName_of_length h.not_mem_posix.2 (by omega), Text.isByproduct_of_not_mem h.not_mem_posix.1⟩

/-- The catalog of a plain locale has a proper name, which is not that of a by-product. -/
theorem IsPlain.isName_catalog (h : l.IsPlain) :
    Path.IsName (l.posix ++ ".po") ∧ Text.isByproduct (l.posix ++ ".po") = false := by
  have hlength := h.length_posix
  have hcatalog : Text.endsWith (l.posix ++ ".po") ".po" = true := List.isSuffixOf_iff_suffix.2 (List.suffix_append _ _)
  refine ⟨isName_of_length ?_ (by rw [List.length_append]; omega), Text.isByproduct_of_catalog hcatalog⟩
  simp [h.not_mem_posix.2]

/-- A name has no extension, or it is cut at its last dot, which is not its first character. -/
theorem splitName_cases (name : Text) :
    Path.splitName name = (name, none) ∨
      ∃ stem extension, name = stem ++ '.' :: extension ∧ stem ≠ [] ∧ '.' ∉ extension ∧
        Path.splitName name = (stem, some extension) := by
  unfold Path.splitName
  split
  · rename_i stem extension hcut
    obtain ⟨hname, hdot⟩ := Text.of_cutAtLast? hcut
    split
    · exact Or.inl rfl
    · rename_i hstem
      exact Or.inr ⟨stem, extension, hname, by simpa using hstem, hdot, rfl⟩
  · exact Or.inl rfl

/-- The name of a variant has the locale at its end, or before the extension of the page. -/
theorem localizedName_cases (l : Locale) (name : Text) :
    (Path.splitName name = (name, none) ∧ l.localizedName name = name ++ '.' :: l.web) ∨
      ∃ stem extension, name = stem ++ '.' :: extension ∧ stem ≠ [] ∧ '.' ∉ extension ∧
        l.localizedName name = (stem ++ '.' :: l.web) ++ '.' :: extension := by
  rcases splitName_cases name with hsplit | ⟨stem, extension, hname, hstem, hextension, hsplit⟩
  · refine Or.inl ⟨hsplit, ?_⟩
    rw [localizedName, hsplit]
    exact List.append_assoc _ _ _
  · refine Or.inr ⟨stem, extension, hname, hstem, hextension, ?_⟩
    rw [localizedName, hsplit]
    simp

/-- The variant of a page for a plain locale has a proper name. -/
theorem IsPlain.isName_localized (h : l.IsPlain) {name : Text} (hslash : '/' ∉ name) : Path.IsName (l.localizedName name) := by
  have hlength := h.length_web
  have hweb := h.not_mem_web.2
  rcases l.localizedName_cases name with ⟨-, hlocalized⟩ | ⟨stem, extension, rfl, -, -, hlocalized⟩
  · rw [hlocalized]
    refine isName_of_length (by simp [hslash, hweb]) ?_
    rw [List.length_append, List.length_cons]
    omega
  · rw [hlocalized]
    have hparts : '/' ∉ stem ∧ '/' ∉ extension := by simpa using hslash
    refine isName_of_length (by simp [hparts, hweb]) ?_
    simp only [List.length_append, List.length_cons]
    omega

/-- A name with something before its last dot is cut there. -/
theorem splitName_append {stem extension : Text} (hstem : stem ≠ []) (hextension : '.' ∉ extension) :
    Path.splitName (stem ++ '.' :: extension) = (stem, some extension) := by
  rw [Path.splitName, Text.cutAtLast?_append stem hextension]
  simp [hstem]

/-- The variant of a page for a plain locale has a proper name, which is neither that of a catalog nor that of a by-product. -/
theorem IsPlain.isName_localizedName (h : l.IsPlain) {name : Text} (hname : Path.IsName name)
    (hpage : Text.endsWith name ".html" = true) :
    Path.IsName (l.localizedName name) ∧ Text.isByproduct (l.localizedName name) = false ∧
      Text.endsWith (l.localizedName name) ".po" = false := by
  have hlength := h.length_web
  obtain ⟨hdot, -⟩ := h.not_mem_web
  refine ⟨h.isName_localized hname.1, ?_⟩
  obtain ⟨stem, rfl⟩ := List.isSuffixOf_iff_suffix.1 hpage
  by_cases hstem : stem = []
  · -- a page with nothing before its extension has none
    subst hstem
    have hlocalized : l.localizedName ".html" = ".html." ++ l.web := rfl
    have hplain : ∀ {ending : Text}, ending.length ≤ 5 → '.' ∈ ending → Text.endsWith (".html." ++ l.web) ending = false := by
      intro ending hshort hin
      rw [Text.endsWith_append _ (hlength.trans' hshort)]
      exact Text.endsWith_eq_false hin hdot
    rw [List.nil_append, hlocalized]
    exact ⟨Text.isByproduct_of_holds (hplain (by decide) (by decide)) (Text.holds_iff.2 ⟨[], "." ++ l.web, rfl⟩),
      hplain (by decide) (by decide)⟩
  · have hlocalized : l.localizedName (stem ++ ".html") = (stem ++ "." ++ l.web) ++ ".html" := by
      have hsplit : Path.splitName (stem ++ ".html") = (stem, some ("html" : Text)) := splitName_append hstem (by decide)
      rw [localizedName, hsplit]
      exact List.append_assoc _ _ _
    rw [hlocalized, Text.endsWith_append _ (by decide)]
    exact ⟨Text.isByproduct_of_page (List.isSuffixOf_iff_suffix.2 (List.suffix_append _ _)), by decide⟩

end Locale

/-! ## The locales of a project -/

/-- The locales that names are read as are plain. -/
theorem Locales.isPlain_of_parseAll {ids : List Text} {tags : List Locale} (h : parseAll ids = .ok tags) : ∀ l ∈ tags, l.IsPlain := by
  obtain ⟨read, hread, rfl⟩ := parseAll_eq_ok_iff.1 h
  have hplain : ∀ l ∈ read, l.IsPlain := by
    clear h
    induction hread with
    | nil => exact nofun
    | cons hparse _ ih => exact List.forall_mem_cons.2 ⟨Locale.isPlain_of_parse hparse, ih⟩
  intro l hl
  exact hplain l (mem_of_mem_foldl_addNew hl)

/-- The locales of a project are plain, and so is the one of its source pages. -/
theorem RunSetting.isPlain_of_mem_tags {tools : Toolbox} {config : Config} {root : Text} {s : RunSetting}
    (h : RunSetting.of tools config root = .ok s) : (∀ l ∈ s.locales.tags, l.IsPlain) ∧ s.locales.default.IsPlain := by
  unfold RunSetting.of Config.supportedLocales at h
  cases hsource : Locale.parse config.defaultLocale with
  | error e =>
    rw [hsource] at h
    cases h
  | ok source =>
    rw [hsource] at h
    cases htags : Locales.parseAll config.locales with
    | error e =>
      simp only [Locales.ofIds, htags] at h
      cases h
    | ok tags =>
      have hplain := Locales.isPlain_of_parseAll htags
      cases tags with
      | nil =>
        simp only [Locales.ofIds, htags] at h
        cases h
      | cons first rest =>
        simp only [Locales.ofIds, htags] at h
        cases h
        exact ⟨hplain, Locale.isPlain_of_parse hsource⟩

end LocalePages
