import LocalePages.Disk.Changes
import LocalePages.Proofs.Entries
import LocalePages.Run.Basic

/-!
# Which pages of a module are found

The pattern of pages stands only for texts that end in `.html` (`GlobPattern.covers_pages`), so that a way on which a page is found
ends with such a name (`Disk.exists_of_isWanted`).
-/

namespace LocalePages

namespace GlobPattern

variable {chars : List Char}

/-- The marks of the ends of a text after its first character are those of the rest. -/
theorem marksFrom_chars_cons (chars : List Char) (c : Char) (t : Text) :
    ∃ mark, marksFrom (chars.map .char) (c :: t) = mark :: marksFrom (chars.map .char) t := by
  induction chars with
  | nil => exact ⟨false, rfl⟩
  | cons d chars ih =>
    obtain ⟨mark, hmark⟩ := ih
    refine ⟨fits c (.char d) && (marksFrom (chars.map .char) t).headD false, ?_⟩
    simp only [List.map_cons, marksFrom, hmark, beforeChar]

/-- The first mark tells whether the text is the one that is compared. -/
theorem eq_of_headD_marksFrom {t : Text} (h : (marksFrom (chars.map .char) t).headD false = true) : t = chars := by
  induction chars generalizing t with
  | nil =>
    cases t with
    | nil => rfl
    | cons c t => cases h
  | cons d chars ih =>
    cases t with
    | nil => simp [marksFrom, beforeChar] at h
    | cons c t =>
      obtain ⟨mark, hmark⟩ := marksFrom_chars_cons chars c t
      simp only [List.map_cons, marksFrom, hmark, beforeChar, List.headD_cons, Bool.and_eq_true, fits, beq_iff_eq] at h
      rw [h.1, ih h.2]

/-- An end of a text that is marked is the one that is compared. -/
theorem suffix_of_mem_marksFrom {t : Text} (h : true ∈ marksFrom (chars.map .char) t) : chars <:+ t := by
  induction t with
  | nil =>
    cases chars with
    | nil => exact List.suffix_refl _
    | cons d chars => simp [marksFrom, beforeChar] at h
  | cons c t ih =>
    obtain ⟨mark, hmark⟩ := marksFrom_chars_cons chars c t
    rw [hmark, List.mem_cons] at h
    rcases h with rfl | h
    · have hhead : (marksFrom (chars.map .char) (c :: t)).headD false = true := by rw [hmark]; rfl
      exact eq_of_headD_marksFrom hhead ▸ List.suffix_refl _
    · exact (ih h).trans (List.suffix_cons c t)

/-- An end that holds a marked one is found by looking for any of them. -/
theorem mem_of_headD_beforeAny {marks : List Bool} (h : (beforeAny marks).headD false = true) : true ∈ marks := by
  induction marks with
  | nil => cases h
  | cons mark marks ih =>
    simp only [beforeAny, List.headD_cons, Bool.or_eq_true] at h
    rcases h with rfl | h
    · exact List.mem_cons_self
    · exact List.mem_cons_of_mem _ (ih h)

/-- A star and an ending stand only for texts with this ending. -/
theorem endsWith_of_covers {ending t : Text} (hparse : parseAll ["*" ++ ending] = [⟨.anyText :: ending.map .char⟩])
    (h : (parseAll ["*" ++ ending]).any (fun p => p.covers t) = true) : Text.endsWith t ending = true := by
  rw [hparse, List.any_cons, List.any_nil, Bool.or_false, covers, marksFrom] at h
  exact List.isSuffixOf_iff_suffix.2 (suffix_of_mem_marksFrom (mem_of_headD_beforeAny h))

/-- The pattern of pages stands only for texts that end in their extension. -/
theorem covers_pages {t : Text} (h : (parseAll ["*." ++ "html"]).any (fun p => p.covers t) = true) :
    Text.endsWith t ".html" = true := endsWith_of_covers (by decide) h

end GlobPattern

namespace Disk

variable {excludes : List GlobPattern}

/-- What a way ends with as patterns see it, its last name ends with. -/
theorem exists_of_endsWith_wayShown {way : Place} {ending : Text} (hnames : ∀ name ∈ way, '/' ∉ name) (hway : way ≠ [])
    (hslash : '/' ∉ ending) (h : Text.endsWith (wayShown way) ending = true) :
    ∃ before name, way = before ++ [name] ∧ Text.endsWith name ending = true := by
  obtain ⟨before, name, rfl⟩ := (List.eq_nil_or_concat way).resolve_left hway
  rw [List.concat_eq_append] at hnames h ⊢
  refine ⟨before, name, rfl, ?_⟩
  obtain ⟨start, hstart⟩ := List.isSuffixOf_iff_suffix.1 h
  have hsegments : Path.segments (wayShown (before ++ [name])) = ("." : Text) :: (before ++ [name]) := by
    have hcut : ("." ++ '/' :: Text.joinWith "/" (before ++ [name]) : Text).splitOn '/' =
        ("." : Text) :: (Text.joinWith "/" (before ++ [name])).splitOn '/' :=
      List.splitOn_append_cons_self_of_not_mem (by decide) _
    have hrest : (Text.joinWith "/" (before ++ [name])).splitOn '/' = before ++ [name] :=
      List.splitOn_intercalate '/' hnames (by simp)
    exact hcut.trans (congrArg _ hrest)
  obtain ⟨more, hmore⟩ := Path.exists_getLast?_segments_append start hslash
  rw [hstart, hsegments, ← List.cons_append, List.getLast?_concat] at hmore
  rw [Option.some.inj hmore]
  exact List.isSuffixOf_iff_suffix.2 (List.suffix_append _ _)

/-- A way to a page ends with a name that ends in the extension of pages. -/
theorem exists_of_isWanted {way : Place} (hnames : ∀ name ∈ way, '/' ∉ name)
    (h : isWanted (GlobPattern.parseAll ["*." ++ "html"]) excludes way = true) (hway : way ≠ []) :
    ∃ before name, way = before ++ [name] ∧ Text.endsWith name ".html" = true := by
  rw [isWanted, Bool.and_eq_true] at h
  exact exists_of_endsWith_wayShown hnames hway (by decide) (GlobPattern.covers_pages h.1)

end Disk

end LocalePages
