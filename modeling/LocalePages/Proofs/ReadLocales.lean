import LocalePages.Locale
import LocalePages.Proofs.FirstOccurrences
import Mathlib.Data.List.Forall2
import Mathlib.Data.List.Nodup

/-!
# The locales that names are read as

A project names its locales, and a locale that is named again in another way is not added again. So its locales are those that its names
are read as, in order of first occurrence and each once by its short name (`Locales.areFirst_of_ofIds`).
-/

namespace LocalePages

namespace Locales

variable {ids : List Text} {tags : List Locale} {l t : Locale}

/-! ## Adding locales -/

/-- Adding locales one after the other keeps the first of each short name. -/
theorem foldl_addNew_spec (read : List Locale) :
    (read.foldl addNew []).map Locale.posix = (read.map Locale.posix).eraseDups ∧
      ∀ t ∈ read.foldl addNew [], (read.find? fun l => l.posix == t.posix) = some t := by
  induction read using List.reverseRecOn with
  | nil => exact ⟨rfl, nofun⟩
  | append_singleton read l ih =>
    obtain ⟨hposix, hfirst⟩ := ih
    have hthere : ((read.foldl addNew []).any fun t => t.posix == l.posix) = true ↔ l.posix ∈ read.map Locale.posix := by
      rw [← List.mem_eraseDups, ← hposix]
      simp
    rw [List.foldl_concat, List.map_append, List.map_singleton, eraseDups_concat, addNew]
    have hkept : ∀ t ∈ read.foldl addNew [], ((read ++ [l]).find? fun l => l.posix == t.posix) = some t := by
      intro t ht
      rw [List.find?_append, hfirst t ht, Option.some_or]
    by_cases hl : l.posix ∈ read.map Locale.posix
    · rw [if_pos hl, if_pos (hthere.2 hl)]
      exact ⟨hposix, hkept⟩
    · rw [if_neg hl, if_neg (mt hthere.1 hl), List.map_append, List.map_singleton, hposix]
      refine ⟨rfl, ?_⟩
      intro t ht
      rcases List.mem_append.1 ht with ht | ht
      · exact hkept t ht
      · obtain rfl := List.mem_singleton.1 ht
        have hnone : (read.find? fun l => l.posix == t.posix) = none := by
          rw [List.find?_eq_none]
          intro t' ht' hsame
          exact hl (List.mem_map.2 ⟨t', ht', by simpa using hsame⟩)
        rw [List.find?_append, hnone]
        simp

/-- No locale is added that is not there. -/
theorem mem_of_mem_foldl_addNew {read : List Locale} (h : t ∈ read.foldl addNew []) : t ∈ read :=
  List.mem_of_find?_eq_some ((foldl_addNew_spec read).2 t h)

theorem foldl_addNew_eq_nil_iff {read : List Locale} : read.foldl addNew [] = [] ↔ read = [] := by
  constructor
  · intro h
    have hnone := (foldl_addNew_spec read).1
    rw [h, List.map_nil] at hnone
    cases read with
    | nil => rfl
    | cons l read =>
      have hin : l.posix ∈ ((l :: read).map Locale.posix).eraseDups := List.mem_eraseDups.2 List.mem_cons_self
      rw [← hnone] at hin
      cases hin
  · rintro rfl
    rfl

/-! ## Reading names -/

/-- Names are read when each of them is, and their locales are added one after the other. -/
theorem parseAll_eq_ok_iff :
    parseAll ids = .ok tags ↔ ∃ read, List.Forall₂ (fun id l => Locale.parse id = .ok l) ids read ∧ tags = read.foldl addNew [] := by
  have hfold : ∀ (ids : List Text) (before : List Locale),
      ids.foldlM (fun tags id => (Locale.parse id).map (addNew tags)) before = .ok tags ↔
        ∃ read, List.Forall₂ (fun id l => Locale.parse id = .ok l) ids read ∧ tags = read.foldl addNew before := by
    intro ids
    induction ids with
    | nil =>
      intro before
      constructor
      · rintro ⟨⟩
        exact ⟨[], .nil, rfl⟩
      · rintro ⟨_, ⟨⟩, rfl⟩
        rfl
    | cons id ids ih =>
      intro before
      rw [List.foldlM_cons]
      constructor
      · intro h
        cases hparse : Locale.parse id with
        | error e =>
          rw [hparse] at h
          cases h
        | ok l =>
          rw [hparse] at h
          obtain ⟨read, hread, htags⟩ := (ih _).1 h
          exact ⟨l :: read, .cons hparse hread, htags⟩
      · rintro ⟨_, hread, htags⟩
        cases hread with
        | cons hparse hread =>
          rw [hparse]
          exact (ih _).2 ⟨_, hread, htags⟩
  exact hfold ids []

/-- Whether locales are those that names are read as, each once by its short name and in order of first occurrence. -/
def AreFirst (ids : List Text) (tags : List Locale) : Prop :=
  ∃ read, List.Forall₂ (fun id l => Locale.parse id = .ok l) ids read ∧
    tags.map Locale.posix = (read.map Locale.posix).eraseDups ∧ ∀ t ∈ tags, (read.find? fun l => l.posix == t.posix) = some t

/-- The locales of a project are those that it names. -/
theorem areFirst_of_ofIds {ls : Locales} (h : ofIds ids = .ok ls) : AreFirst ids ls.tags := by
  unfold ofIds at h
  split at h
  · cases h
  · cases h
  · rename_i first rest htags
    cases h
    obtain ⟨read, hread, hfold⟩ := parseAll_eq_ok_iff.1 htags
    obtain ⟨hposix, hfirst⟩ := foldl_addNew_spec read
    rw [← hfold] at hposix hfirst
    exact ⟨read, hread, hposix, hfirst⟩

theorem AreFirst.nodup (h : AreFirst ids tags) : (tags.map Locale.posix).Nodup := by
  obtain ⟨read, -, hposix, -⟩ := h
  rw [hposix]
  exact nodup_eraseDups _

/-- Of locales with different short names, the one of a short name is the first one of it. -/
theorem find?_posix_of_mem (hnodup : (tags.map Locale.posix).Nodup) (ht : t ∈ tags) (hsame : t.posix = l.posix) :
    (tags.find? fun t => t.posix == l.posix) = some t := by
  cases hfind : tags.find? fun t => t.posix == l.posix with
  | none => exact absurd (by simpa using hsame) (List.find?_eq_none.1 hfind t ht)
  | some t' =>
    have ht' : t'.posix = l.posix := by simpa using List.find?_some hfind
    rw [List.inj_on_of_nodup_map hnodup (List.mem_of_find?_eq_some hfind) ht (ht'.trans hsame.symm)]

/-- Of locales with different short names, all but those of a short name are all but the first one of it. -/
theorem filter_posix_eq_eraseP (hnodup : (tags.map Locale.posix).Nodup) (name : Text) :
    (tags.filter fun t => !(t.posix == name)) = tags.eraseP fun t => t.posix == name := by
  induction tags with
  | nil => rfl
  | cons t tags ih =>
    rw [List.map_cons, List.nodup_cons] at hnodup
    by_cases ht : t.posix = name
    · have hrest : ∀ t' ∈ tags, (!(t'.posix == name)) = true := by
        intro t' ht'
        have hne : t'.posix ≠ name := by
          rintro rfl
          exact hnodup.1 (List.mem_map.2 ⟨t', ht', ht.symm⟩)
        simp [hne]
      rw [List.filter_cons_of_neg (by simp [ht]), List.eraseP_cons_of_pos (by simp [ht]), List.filter_eq_self.2 hrest]
    · rw [List.filter_cons_of_pos (by simp [ht]), List.eraseP_cons_of_neg (by simp [ht]), ih hnodup.2]

end Locales

end LocalePages
