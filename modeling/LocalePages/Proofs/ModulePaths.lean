import LocalePages.Proofs.CleanedPaths
import LocalePages.Proofs.Entries
import LocalePages.Proofs.OwnCatalogs
import LocalePages.Proofs.PathSizes

/-!
# Which modules a configuration stands for

The modules are folders (`isFolder_of_mem_discoverModules`), and which ones they are does not depend on the order of the entries
that stand for them (`perm_discoverModules`). Both rest on what a cleaned path keeps, the pieces that say something: it leads where
the path leads.
-/

namespace LocalePages

/-! ## Where a cleaned path leads -/

namespace Path

/-- What is joined from some of the pieces is a part of what is joined from all. -/
theorem joinWith_sublist (wanted : Text → Bool) (pieces : List Text) :
    (Text.joinWith "/" (pieces.filter wanted)).Sublist (Text.joinWith "/" pieces) := by
  have hend : ∀ (first : Text) (rest : List Text), (Text.joinWith "/" rest).Sublist (Text.joinWith "/" (first :: rest)) := by
    intro first rest
    cases rest with
    | nil => exact List.nil_sublist _
    | cons second rest =>
      rw [Text.joinWith_cons_cons]
      exact ((List.sublist_append_right _ _).trans (List.sublist_append_right _ _))
  induction pieces with
  | nil => exact List.Sublist.slnil
  | cons first rest ih =>
    rw [List.filter_cons]
    split
    · cases hkept : rest.filter wanted with
      | nil =>
        cases rest with
        | nil => exact List.Sublist.refl _
        | cons second rest =>
          rw [Text.joinWith_cons_cons, Text.joinWith_singleton]
          exact List.sublist_append_left _ _
      | cons second kept =>
        rw [hkept] at ih
        cases rest with
        | nil => cases hkept
        | cons third rest =>
          rw [Text.joinWith_cons_cons, Text.joinWith_cons_cons]
          exact (List.Sublist.refl first).append ((List.Sublist.refl _).append ih)
    · exact ih.trans (hend first rest)

/-- A cleaned path is a part of the path. -/
theorem cleaned_sublist (path : Text) : (cleaned path).Sublist path := by
  have hjoined : ∀ path : Text, Text.joinWith "/" (segments path) = path := fun _ => List.intercalate_splitOn '/'
  rw [cleaned_eq]
  split
  · rename_i habsolute
    obtain ⟨rest, rfl⟩ := exists_of_isAbsolute habsolute
    have hsaying : saying ('/' :: rest) = saying rest := by
      rw [saying, segments_cons_slash]
      rfl
    have hrest := joinWith_sublist (fun piece => !isIdle piece) (segments rest)
    rw [hjoined] at hrest
    rw [hsaying]
    exact hrest.cons_cons '/'
  · have hpath := joinWith_sublist (fun piece => !isIdle piece) (segments path)
    rwa [hjoined] at hpath

end Path

namespace Disk

/-- Pieces that say nothing do not tell where a way leads. -/
theorem walk_filter {d : Disk} {base p : Place} {pieces : List Text} (h : d.walk base pieces = .ok p) :
    d.walk base (pieces.filter fun piece => !Path.isIdle piece) = .ok p := by
  induction pieces generalizing base with
  | nil => exact h
  | cons piece pieces ih =>
    obtain ⟨hfolder, next, hrest, hnext⟩ := walk_cons_eq_ok_iff.1 h
    cases hidle : Path.isIdle piece with
    | true =>
      have hstays : next = base := by
        rcases hnext with ⟨-, hnext⟩ | ⟨rfl, -⟩ | ⟨hproper, -⟩
        · exact hnext
        · exact absurd hidle (by decide)
        · rw [hidle] at hproper
          cases hproper
      rw [List.filter_cons, hidle, ← hstays]
      exact ih hrest
    | false =>
      rw [List.filter_cons, hidle]
      exact walk_cons_eq_ok_iff.2 ⟨hfolder, next, ih hrest, hnext⟩

/-- A cleaned path leads where the path leads. -/
theorem place_cleaned {d : Disk} {path : Text} {p : Place} (hne : Path.cleaned path ≠ []) (h : d.place path = .ok p) :
    d.place (Path.cleaned path) = .ok p := by
  obtain ⟨hfault, hspells⟩ := spells_of_place h
  have hstart : d.start path = (if Path.isAbsolute path then [] else d.here, Path.segments path) := by
    unfold start
    split <;> rfl
  have hstart' : d.start (Path.cleaned path) = (if Path.isAbsolute path then [] else d.here, Path.segments (Path.cleaned path)) := by
    unfold start
    rw [Path.isAbsolute_cleaned]
    split <;> rfl
  rw [Spells, hstart] at hspells
  have hwalk := walk_filter hspells
  change d.walk (if Path.isAbsolute path then [] else d.here) (Path.saying path) = .ok p at hwalk
  rw [place_eq d hne, fault?_eq_none_of_sublist (Path.cleaned_sublist path) hfault, hstart', Path.segments_cleaned hne]
  dsimp only
  split
  · -- the root is a folder, so that an empty piece stays there
    rw [if_pos ‹_›] at hwalk
    split
    · rename_i hnone
      rw [hnone] at hwalk
      exact hwalk
    · exact hwalk
  · rwa [if_neg ‹_›] at hwalk

/-- The cleaned path of a folder leads to it. -/
theorem isFolder_cleaned {d : Disk} {path : Text} (hne : Path.cleaned path ≠ []) (h : d.isFolder path = true) :
    d.isFolder (Path.cleaned path) = true := by
  unfold isFolder find? at h ⊢
  cases hplace : d.place path with
  | error e =>
    rw [hplace] at h
    cases h
  | ok p =>
    rw [place_cleaned hne hplace]
    rwa [hplace] at h

end Disk

/-! ## The modules of a configuration -/

/-- Which paths an entry stands for does not depend on what was logged. -/
theorem expandEntry_congr (d : Disk) (root entry : Text) (log log' : Log) :
    (expandEntry d root entry log).1 = (expandEntry d root entry log').1 := by
  unfold expandEntry
  dsimp only
  split
  · split <;> rfl
  · split <;> rfl

/-- The modules are what is added for the entries one after the other. -/
theorem discoverModules_eq (d : Disk) (root : Text) (entries : List Text) (log : Log) :
    (discoverModules d root entries log).1 = addFolders [] (entries.flatMap fun entry => (expandEntry d root entry .empty).1) := by
  rw [addFolders, List.foldl_flatMap, discoverModules]
  refine (List.foldl_hom Prod.fst fun acc entry => ?_).symm
  exact congrArg (addFolders acc.1) (expandEntry_congr d root entry .empty acc.2)

/-- Cleaned folders that are added are there. -/
theorem mem_addFolders {folders new : List Text} (hfolders : ∀ f ∈ folders, ∃ path, f = Path.cleaned path)
    (hnew : ∀ f ∈ new, ∃ path, f = Path.cleaned path) {f : Text} : f ∈ addFolders folders new ↔ f ∈ folders ∨ f ∈ new := by
  refine ⟨mem_of_mem_addFolders, ?_⟩
  induction new generalizing folders with
  | nil => exact fun h => h.elim id fun h => absurd h List.not_mem_nil
  | cons g new ih =>
    obtain ⟨⟨path, hg⟩, hnew⟩ := List.forall_mem_cons.1 hnew
    intro h
    rw [addFolders, List.foldl_cons, ← addFolders]
    split
    · rename_i hsame
      -- a cleaned folder with the components of this one is this one
      have hin : g ∈ folders := by
        obtain ⟨other, hother, hsame⟩ := List.any_eq_true.1 hsame
        obtain ⟨path', rfl⟩ := hfolders other hother
        subst hg
        rwa [Path.eq_of_same_cleaned hsame]
      refine ih hfolders hnew (h.elim Or.inl fun h => ?_)
      exact (List.mem_cons.1 h).elim (fun h => Or.inl (h ▸ hin)) Or.inr
    · refine ih (fun f hf => ?_) hnew ?_
      · rcases List.mem_append.1 hf with hf | hf
        · exact hfolders f hf
        · exact ⟨path, (List.mem_singleton.1 hf).trans hg⟩
      · rw [List.mem_append, List.mem_singleton]
        exact h.elim (fun h => Or.inl (Or.inl h)) fun h => (List.mem_cons.1 h).elim (fun h => Or.inl (Or.inr h)) Or.inr

/-- The modules are the folders that the entries stand for. -/
theorem mem_discoverModules {d : Disk} {root : Text} {entries : List Text} {log : Log} {path : Text} :
    path ∈ (discoverModules d root entries log).1 ↔ ∃ entry ∈ entries, path ∈ (expandEntry d root entry .empty).1 := by
  rw [discoverModules_eq, mem_addFolders (List.forall_mem_nil _) fun f hf => ?_, List.mem_flatMap]
  · simp only [List.not_mem_nil, false_or]
  · obtain ⟨entry, -, hin⟩ := List.mem_flatMap.1 hf
    exact exists_cleaned_of_mem_expandEntry hin

/-- Entries in another order stand for the same modules, each once. -/
theorem perm_discoverModules {d : Disk} {root : Text} {entries entries' : List Text} (h : entries.Perm entries') (log log' : Log) :
    (discoverModules d root entries log).1.Perm (discoverModules d root entries' log').1 := by
  refine (List.perm_ext_iff_of_nodup (discoverModules_spec d root entries log).1 (discoverModules_spec d root entries' log').1).2
    fun path => ?_
  rw [mem_discoverModules, mem_discoverModules]
  simp only [h.mem_iff]

/-- The modules are folders. -/
theorem isFolder_of_mem_discoverModules {d : Disk} {root : Text} {entries : List Text} {log : Log} {path : Text}
    (h : path ∈ (discoverModules d root entries log).1) (hne : path ≠ []) : d.isFolder path = true := by
  obtain ⟨entry, -, hin⟩ := mem_discoverModules.1 h
  unfold expandEntry at hin
  dsimp only at hin
  split at hin
  · split at hin
    · obtain ⟨found, hfound, rfl⟩ := List.mem_map.1 hin
      exact Disk.isFolder_cleaned hne (List.mem_filter.1 hfound).2
    · cases hin
  · split at hin
    · rename_i hfolder
      rwa [List.mem_singleton.1 hin]
    · cases hin

end LocalePages
