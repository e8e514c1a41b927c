import LocalePages.Proofs.HeldRoots

/-!
# Projects do not depend on where they lie

The modules of a project are the same, relative to its root, wherever the project lies (`discoverModules_relative`): a project on a disk
has the modules that it has as a disk of its own, with the root before their paths (`discoverModules_held`). This holds as long as
the entries stay inside the project, paths are no longer than they can be, and the root holds no wildcards when an entry is a pattern:
the root is a part of the pattern that is expanded, and its wildcards are wildcards there (`discoverModules_relative_false`).
-/

namespace LocalePages

variable {d tree : Disk} {root path path' entry : Text} {p : Place} {reach : Nat}

/-! ## Paths with a root before them -/

namespace Disk.Holds

variable (h : d.Holds root p tree) (hsaying : Path.saying path = Path.saying root ++ Path.saying path')

include h hsaying

/-- A path with what the root says before it holds a NUL when it holds one without. -/
theorem null_mem_iff : '\x00' ∈ path ↔ '\x00' ∈ path' := by
  have hroot : ¬∃ piece ∈ Path.saying root, '\x00' ∈ piece := fun hin =>
    h.null_not_mem_root ((Path.mem_iff_exists_saying (by decide) (by decide) root).2 hin)
  rw [Path.mem_iff_exists_saying (by decide) (by decide) path, Path.mem_iff_exists_saying (by decide) (by decide) path', hsaying]
  constructor
  · rintro ⟨piece, hin, hnull⟩
    rcases List.mem_append.1 hin with hin | hin
    · exact absurd ⟨piece, hin, hnull⟩ hroot
    · exact ⟨piece, hin, hnull⟩
  · rintro ⟨piece, hin, hnull⟩
    exact ⟨piece, List.mem_append_right _ hin, hnull⟩

/-- Paths that are short enough have the same fault with what the root says before them. -/
theorem fault?_eq (hshort : Utf8.size path ≤ pathLimit) (hshort' : Utf8.size path' ≤ pathLimit) : fault? path = fault? path' := by
  have hnull : path.contains '\x00' = path'.contains '\x00' := by
    rw [Bool.eq_iff_iff, List.contains_iff_mem, List.contains_iff_mem]
    exact h.null_mem_iff hsaying
  rw [fault?, fault?, hnull, if_neg (Nat.not_lt.2 hshort), if_neg (Nat.not_lt.2 hshort')]

end Disk.Holds

/-- A path with what the root says before it is cleaned like the root with the cleaned path after it. -/
theorem Path.cleaned_eq_of_saying_eq (habsolute : isAbsolute path = true) (hroot : isAbsolute root = true)
    (habsolute' : isAbsolute path' = true) (hsaying : saying path = saying root ++ saying path') :
    cleaned path = cleaned (root ++ cleaned path') := by
  have hmore : isAbsolute (cleaned path') = true := (isAbsolute_cleaned path').trans habsolute'
  rw [cleaned_eq, cleaned_eq (root ++ _), if_pos habsolute, if_pos (isAbsolute_append hroot _), saying_append root hmore,
    saying_cleaned, hsaying]

/-! ## Folders that are found -/

namespace Glob

/-- Paths that go along with each other are folders alike. -/
theorem FoundAlong.isFolder_eq (hfound : FoundAlong d root p tree reach path path') (h : d.Holds root p tree) :
    d.isFolder path = tree.isFolder path' := by
  obtain ⟨v, hs⟩ := hfound
  have hshort : max (Utf8.size path) (Utf8.size path') ≤ Disk.pathLimit :=
    (Nat.le_add_right _ _).trans ((Nat.le_add_right _ _).trans hs.short)
  have hfault := h.fault?_eq hs.saying_eq (Nat.max_le.1 hshort).1 (Nat.max_le.1 hshort).2
  have hplace : ∀ {e : Disk} {path : Text} {q : Place}, Path.isAbsolute path = true → e.Spells path q →
      e.isFolder path = ((Disk.fault? path).isNone && e.isFolderAt q) := by
    intro e path q habsolute hspells
    obtain ⟨rest, rfl⟩ := Path.exists_of_isAbsolute habsolute
    rw [Disk.isFolder, Disk.find?, Disk.place_eq e (List.cons_ne_nil _ _)]
    cases Disk.fault? ('/' :: rest) with
    | some e => rfl
    | none =>
      rw [hspells]
      rfl
  rw [hplace hs.isAbsolute.1 hs.spells.1, hplace hs.isAbsolute.2 hs.spells.2, hfault, h.isFolderAt_eq]

/-- The folders among paths that go along with each other are the same after the root. -/
theorem foldersAmong_eq (h : d.Holds root p tree) {paths paths' : List Text}
    (hfound : List.Forall₂ (FoundAlong d root p tree reach) paths paths') :
    foldersAmong d paths = (foldersAmong tree paths').map (fun f => Path.cleaned (root ++ f)) ∧
      ∀ f ∈ foldersAmong tree paths', Path.isAbsolute f = true := by
  induction hfound with
  | nil => exact ⟨rfl, List.forall_mem_nil _⟩
  | @cons path path' paths paths' hpath _ ih =>
    have hfolder := hpath.isFolder_eq h
    obtain ⟨v, hs⟩ := hpath
    unfold foldersAmong at ih ⊢
    rw [List.filter_cons, List.filter_cons, hfolder]
    split
    · rw [List.map_cons, List.map_cons, List.map_cons, ih.1, List.forall_mem_cons]
      refine ⟨?_, (Path.isAbsolute_cleaned path').trans hs.isAbsolute.2, ih.2⟩
      rw [Path.cleaned_eq_of_saying_eq hs.isAbsolute.1 h.isAbsolute hs.isAbsolute.2 hs.saying_eq]
    · exact ih

end Glob

/-- Pieces that stay inside a held tree lead to the same places on both disks. -/
theorem Disk.Holds.walk_eq (h : d.Holds root p tree) (hreach : ∀ way, tree.entry? way ≠ none → way.size ≤ reach) {pieces : List Text}
    {v : Place} (hthere : tree.entry? v ≠ none) (hstays : Glob.staysInside v.length (pieces.map GlobPattern.ofText) = true) :
    d.walk (p ++ v) pieces = (tree.walk v pieces).map (p ++ ·) := by
  induction pieces generalizing v with
  | nil => rfl
  | cons piece pieces ih =>
    have hname : (GlobPattern.ofText piece).Takes piece := Or.inl (GlobPattern.literal?_eq_some_iff.2 rfl)
    rw [← List.singleton_append, walk_append, walk_append, h.walk_one_eq (hname.ne_nil hstays)]
    cases hwalk : tree.walk v [piece] with
    | error e => rfl
    | ok w =>
      obtain ⟨hthere, hstays, -⟩ := h.isTree_held.walk_takes hreach hthere hstays hname hwalk
      exact ih hthere hstays

/-- Whether a cleaned path leads to a folder is told by what the path says. -/
theorem Disk.isFolder_cleaned_eq (d : Disk) (h : Path.isAbsolute path = true) :
    d.isFolder (Path.cleaned path) = ((fault? (Path.cleaned path)).isNone && (d.walk [] (Path.saying path)).toOption.any d.isFolderAt) := by
  have hfrom : Path.isAbsolute (Path.cleaned path) = true := (Path.isAbsolute_cleaned path).trans h
  have hne : Path.cleaned path ≠ [] := by
    intro hnil
    rw [hnil] at hfrom
    cases hfrom
  have hwalk : d.walk (d.start (Path.cleaned path)).1 (d.start (Path.cleaned path)).2 = d.walk [] (Path.saying path) := by
    unfold start
    rw [if_pos hfrom, Path.segments_cleaned hne, if_pos h]
    dsimp only
    split
    · rename_i hnone
      rw [hnone]
      rfl
    · rfl
  rw [isFolder, find?, place_eq d hne, hwalk]
  cases fault? (Path.cleaned path) with
  | some e => rfl
  | none => cases d.walk [] (Path.saying path) <;> rfl

/-! ## Entries -/

/-- The components of an entry: the patterns between its slashes, or the names in it when it is no pattern. -/
def entryComponents (entry : Text) : List GlobPattern :=
  if Config.isPattern entry then ((Glob.pieces entry).mapM GlobPattern.parse).toOption.getD []
  else (Path.saying entry).map GlobPattern.ofText

/-- Whether an entry stands for folders of a project only: it does not lead out of the project, the root before it holds no wildcards
that would be read with its own, and no path becomes longer than a path can be. -/
structure EntryFits (tree : Disk) (root entry : Text) : Prop where
  relative : Path.isAbsolute entry = false
  stays : Glob.staysInside 0 (entryComponents entry) = true
  plain : Config.isPattern entry = true → GlobPattern.IsPlain root
  short : ∃ reach, (∀ way, tree.entry? way ≠ none → way.size ≤ reach) ∧
    Utf8.size root + 1 + Glob.roomOf reach (entryComponents entry) + reach ≤ Disk.pathLimit

/-- There is room for what an entry says. -/
theorem Glob.size_le_roomOf (reach : Nat) (names : List Text) : Place.size names ≤ roomOf reach (names.map GlobPattern.ofText) := by
  induction names with
  | nil => exact Nat.zero_le _
  | cons name names ih =>
    have hname : (GlobPattern.ofText name).Takes name := Or.inl (GlobPattern.literal?_eq_some_iff.2 rfl)
    have hroom := hname.size_lt_room reach
    rw [List.map_cons, roomOf_cons, Place.size_cons]
    omega

/-- An entry without wildcards leads to the same folder, if to any. -/
theorem isFolder_join_held (h : d.Holds root p tree) (hreach : ∀ way, tree.entry? way ≠ none → way.size ≤ reach)
    (hrelative : Path.isAbsolute entry = false)
    (hstays : Glob.staysInside 0 ((Path.saying entry).map GlobPattern.ofText) = true)
    (hshort : Utf8.size root + 1 + Glob.roomOf reach ((Path.saying entry).map GlobPattern.ofText) ≤ Disk.pathLimit) :
    d.isFolder (Path.cleaned (Path.join root entry)) = tree.isFolder (Path.cleaned (Path.join "/" entry)) := by
  have hjoin := Path.saying_join root hrelative
  have hjoin' : Path.saying (Path.join "/" entry) = Path.saying entry := Path.saying_join "/" hrelative
  have hsaying : Path.saying (Path.cleaned (Path.join root entry)) =
      Path.saying root ++ Path.saying (Path.cleaned (Path.join "/" entry)) := by
    rw [Path.saying_cleaned, Path.saying_cleaned, hjoin, hjoin']
  have habsolute : Path.isAbsolute (Path.join root entry) = true := (Path.isAbsolute_join_of_relative root hrelative).trans h.isAbsolute
  have habsolute' : Path.isAbsolute (Path.join "/" entry) = true := (Path.isAbsolute_join_of_relative "/" hrelative).trans rfl
  have hcleaned := Path.size_cleaned_le habsolute
  have hcleaned' := Path.size_cleaned_le habsolute'
  have hroot := Path.size_saying_le h.isAbsolute
  have hentry := Glob.size_le_roomOf reach (Path.saying entry)
  rw [hjoin, Place.size_append] at hcleaned
  rw [hjoin'] at hcleaned'
  have hfault := h.fault?_eq hsaying (by omega) (by omega)
  have hwalk : d.walk [] (Path.saying root) = .ok p := by
    have hspells := h.spells_root
    unfold Disk.Spells Disk.start at hspells
    rw [if_pos h.isAbsolute] at hspells
    exact Disk.walk_filter hspells
  have hheld := h.walk_eq hreach (v := []) (Option.some_ne_none _) hstays
  rw [List.append_nil] at hheld
  rw [d.isFolder_cleaned_eq habsolute, tree.isFolder_cleaned_eq habsolute', hfault, hjoin, hjoin', Disk.walk_append, hwalk]
  congr 1
  change (d.walk p (Path.saying entry)).toOption.any d.isFolderAt = _
  rw [hheld]
  cases tree.walk [] (Path.saying entry) with
  | error e => rfl
  | ok w => exact h.isFolderAt_eq w

/-- An entry stands for the same folders on a disk as on the tree that the disk holds, with the root before them. -/
theorem expandEntry_held (h : d.Holds root p tree) (hfits : EntryFits tree root entry) (log log' : Log) :
    (expandEntry d root entry log).1 = (expandEntry tree "/" entry log').1.map (fun f => Path.cleaned (root ++ f)) ∧
      ∀ f ∈ (expandEntry tree "/" entry log').1, Path.isAbsolute f = true := by
  obtain ⟨reach, hreach, hshort⟩ := hfits.short
  have hstays := hfits.stays
  unfold entryComponents at hshort hstays
  unfold expandEntry
  dsimp only
  by_cases hpattern : Config.isPattern entry = true
  · rw [if_pos hpattern] at hshort hstays
    rw [if_pos hpattern, if_pos hpattern]
    have hrel := Glob.rel_expand_join h (hfits.plain hpattern) hreach hfits.relative hstays hshort
    cases hdisk : Glob.expand d (Path.join root entry) with
    | error e =>
      cases htree : Glob.expand tree (Path.join "/" entry) with
      | error e' => exact ⟨rfl, List.forall_mem_nil _⟩
      | ok paths' =>
        rw [hdisk, htree] at hrel
        cases hrel
    | ok paths =>
      cases htree : Glob.expand tree (Path.join "/" entry) with
      | error e' =>
        rw [hdisk, htree] at hrel
        cases hrel
      | ok paths' =>
        rw [hdisk, htree] at hrel
        cases hrel with
        | some hfound => exact Glob.foldersAmong_eq h hfound
  · rw [if_neg hpattern] at hshort hstays
    rw [if_neg hpattern, if_neg hpattern]
    have hfolder := isFolder_join_held h hreach hfits.relative hstays (by omega)
    have hfrom : Path.isAbsolute (Path.join "/" entry) = true := (Path.isAbsolute_join_of_relative "/" hfits.relative).trans rfl
    rw [hfolder]
    split
    · refine ⟨congrArg (fun f => [f]) ?_, fun f hf => ?_⟩
      · refine Path.cleaned_eq_of_saying_eq ((Path.isAbsolute_join_of_relative root hfits.relative).trans h.isAbsolute) h.isAbsolute hfrom ?_
        rw [Path.saying_join root hfits.relative, Path.saying_join "/" hfits.relative]
        rfl
      · rw [List.mem_singleton.1 hf]
        exact (Path.isAbsolute_cleaned _).trans hfrom
    · exact ⟨rfl, List.forall_mem_nil _⟩

/-! ## The modules of a project -/

/-- Folders after a root are the same when they are the same without it. -/
theorem Path.same_root (hroot : isAbsolute root = true) (h : isAbsolute path = true) (h' : isAbsolute path' = true) :
    same (cleaned (root ++ path)) (cleaned (root ++ path')) = same path path' := by
  have hcomponents : ∀ {path : Text}, isAbsolute path = true →
      components (cleaned (root ++ path)) = .root :: ((saying root).map componentOf ++ (saying path).map componentOf) := by
    intro path h
    rw [components_of_isAbsolute ((isAbsolute_cleaned _).trans (isAbsolute_append hroot path)), saying_cleaned, saying_append root h,
      List.map_append]
  rw [same, same, hcomponents h, hcomponents h', components_of_isAbsolute h, components_of_isAbsolute h', Bool.eq_iff_iff, beq_iff_eq,
    beq_iff_eq, List.cons_inj_right, List.cons_inj_right, List.append_cancel_left_eq]

/-- Folders are added after a root as they are added without it. -/
theorem addFolders_root (hroot : Path.isAbsolute root = true) {folders new : List Text}
    (hfolders : ∀ f ∈ folders, Path.isAbsolute f = true) (hnew : ∀ f ∈ new, Path.isAbsolute f = true) :
    addFolders (folders.map fun f => Path.cleaned (root ++ f)) (new.map fun f => Path.cleaned (root ++ f)) =
      (addFolders folders new).map fun f => Path.cleaned (root ++ f) := by
  induction new generalizing folders with
  | nil => rfl
  | cons f new ih =>
    obtain ⟨hf, hnew⟩ := List.forall_mem_cons.1 hnew
    have hany : (folders.map fun f => Path.cleaned (root ++ f)).any (Path.same (Path.cleaned (root ++ f))) =
        folders.any (Path.same f) := by
      rw [List.any_map, Bool.eq_iff_iff, List.any_eq_true, List.any_eq_true]
      exact exists_congr fun g => and_congr_right fun hg => by rw [Function.comp_apply, Path.same_root hroot hf (hfolders g hg)]
    rw [List.map_cons, addFolders, addFolders, List.foldl_cons, List.foldl_cons, hany, ← addFolders, ← addFolders]
    split
    · exact ih hfolders hnew
    · have hmore := ih (List.forall_mem_append.2 ⟨hfolders, List.forall_mem_singleton.2 hf⟩) hnew
      rwa [List.map_append] at hmore

/-- A project has the modules on a disk that it has as a disk of its own, with the root before their paths. -/
theorem discoverModules_held (h : d.Holds root p tree) {entries : List Text} (hfits : ∀ entry ∈ entries, EntryFits tree root entry)
    (log log' : Log) :
    (discoverModules d root entries log).1 = (discoverModules tree "/" entries log').1.map (fun f => Path.cleaned (root ++ f)) ∧
      ∀ f ∈ (discoverModules tree "/" entries log').1, Path.isAbsolute f = true := by
  have hentry := fun entry hin => expandEntry_held h (hfits entry hin) .empty .empty
  have hexpanded : (entries.flatMap fun entry => (expandEntry d root entry .empty).1) =
      (entries.flatMap fun entry => (expandEntry tree "/" entry .empty).1).map fun f => Path.cleaned (root ++ f) := by
    rw [List.map_flatMap]
    exact List.flatMap_congr fun entry hin => (hentry entry hin).1
  have habsolute : ∀ f ∈ entries.flatMap fun entry => (expandEntry tree "/" entry .empty).1, Path.isAbsolute f = true := by
    intro f hf
    obtain ⟨entry, hin, hf⟩ := List.mem_flatMap.1 hf
    exact (hentry entry hin).2 f hf
  rw [discoverModules_eq, discoverModules_eq, hexpanded]
  refine ⟨addFolders_root h.isAbsolute (List.forall_mem_nil _) habsolute, fun f hf => ?_⟩
  exact (mem_of_mem_addFolders hf).elim (fun hin => absurd hin List.not_mem_nil) (habsolute f)

/-- The path from a root to a folder after it is the path of the folder, but for the slash at its start. -/
theorem Path.relativeTo?_root (hroot : isAbsolute root = true) (h : isAbsolute path = true) (hcleaned : cleaned path = path) :
    relativeTo? root (cleaned (root ++ path)) = some path.tail := by
  rw [relativeTo?_eq_some_iff hroot ((isAbsolute_cleaned _).trans (isAbsolute_append hroot path)) (cleaned_cleaned _)]
  refine ⟨saying path, ?_, ?_⟩
  · rw [saying_cleaned, saying_append root h]
  · rw [cleaned_eq, if_pos h] at hcleaned
    exact congrArg List.tail hcleaned.symm

/-- The modules of a project are the same from its root and in the same order, each once, wherever the project lies. -/
theorem discoverModules_relative {d' : Disk} {root' : Text} {p' : Place} (h : d.Holds root p tree) (h' : d'.Holds root' p' tree)
    {entries : List Text} (hfits : ∀ entry ∈ entries, EntryFits tree root entry) (hfits' : ∀ entry ∈ entries, EntryFits tree root' entry)
    (log log' : Log) :
    ∃ modules : List Text, modules.Nodup ∧ (discoverModules d root entries log).1.map (Path.relativeTo? root) = modules.map some ∧
      (discoverModules d' root' entries log').1.map (Path.relativeTo? root') = modules.map some := by
  obtain ⟨hnodup, hcleaned⟩ := discoverModules_spec tree "/" entries .empty
  obtain ⟨hmodules, habsolute⟩ := discoverModules_held h hfits log .empty
  obtain ⟨hmodules', -⟩ := discoverModules_held h' hfits' log' .empty
  have hrelative : ∀ {root : Text}, Path.isAbsolute root = true →
      ((discoverModules tree "/" entries .empty).1.map fun f => Path.cleaned (root ++ f)).map (Path.relativeTo? root) =
        ((discoverModules tree "/" entries .empty).1.map List.tail).map some := by
    intro root hroot
    rw [List.map_map, List.map_map]
    refine List.map_congr_left fun f hf => ?_
    obtain ⟨path, hpath⟩ := hcleaned f hf
    exact Path.relativeTo?_root hroot (habsolute f hf) (by rw [hpath, Path.cleaned_cleaned])
  refine ⟨(discoverModules tree "/" entries .empty).1.map List.tail, ?_, ?_, ?_⟩
  · -- each of the paths is a slash and its tail
    refine List.Nodup.map_on (fun f hf g hg htail => ?_) hnodup
    obtain ⟨t, rfl⟩ := Path.exists_of_isAbsolute (habsolute f hf)
    obtain ⟨u, rfl⟩ := Path.exists_of_isAbsolute (habsolute g hg)
    exact congrArg ('/' :: ·) htail
  · rw [hmodules, hrelative h.isAbsolute]
  · rw [hmodules', hrelative h'.isAbsolute]

/-! ## A project with one module -/

namespace OneModule

/-- A project with one module, as a disk of its own. -/
def project : Disk := ⟨[(["m"], .folder true)], []⟩

/-- A disk with the project in a folder. -/
def inFolder (name : Text) : Disk := ⟨[([name], .folder true), ([name, "m"], .folder true)], []⟩

theorem isTree_project : project.IsTree := .of_entries (by decide) (by decide)

/-- The disk holds the project in a folder of any name. -/
theorem holds_inFolder {name : Text} (hname : Path.IsName name) (hfault : Disk.fault? (Path.join "/" name) = none) :
    (inFolder name).Holds (Path.join "/" name) [name] project := by
  have hmodule : Path.IsName "m" := by decide
  have hspells : (inFolder name).Spells "/" [] := rfl
  have hthere : Disk.entry? (inFolder name) [name] = some (.folder true) := by
    rw [Disk.entry?, inFolder, Members.get?_cons, if_pos rfl]
    rfl
  have hfolder : (inFolder name).isFolderAt [name] = true := by rw [Disk.isFolderAt, hthere]
  refine ⟨.of_entries (by simp [inFolder]) ?_, isTree_project, Path.isAbsolute_join "/" hname, ?_, hfolder, fun way hway => ?_⟩
  · intro x hx
    rcases List.mem_cons.1 hx with rfl | hx
    · exact ⟨by simpa using hname, rfl⟩
    · rw [List.mem_singleton.1 hx]
      exact ⟨by simpa using ⟨hname, hmodule⟩, hfolder⟩
  · rw [Disk.place_join hname hspells rfl, hfault, List.nil_append, hthere]
    rfl
  · obtain ⟨first, rest, rfl⟩ := List.exists_cons_of_ne_nil hway
    have hnone : ∀ q, Members.get? q ([] : List (Place × DiskEntry)) = none := fun _ => rfl
    rw [Disk.entry?, Disk.entry?, inFolder, project, Members.get?_cons, Members.get?_cons, Members.get?_cons, hnone, hnone]
    simp

/-- The entries of the project: its module by name, and a pattern for it. -/
def entries : List Text := ["?", "m"]

/-- The entries stand for folders of the project after a short root without wildcards. -/
theorem entryFits {root : Text} (hplain : GlobPattern.IsPlain root) (hshort : Utf8.size root ≤ 100) :
    ∀ entry ∈ entries, EntryFits project root entry := by
  intro entry hentry
  have hreach : ∀ way, project.entry? way ≠ none → way.size ≤ 2 := by
    intro way hthere
    by_cases hway : way = []
    · rw [hway]
      exact Nat.zero_le _
    · rw [Disk.entry?, if_neg (by simpa using hway), project, Members.get?_cons] at hthere
      split at hthere
      · rename_i hmodule
        rw [← hmodule]
        decide
      · exact absurd rfl hthere
  have hlimit : Disk.pathLimit = 4095 := rfl
  have hfacts : ∀ entry ∈ entries, Path.isAbsolute entry = false ∧ Glob.staysInside 0 (entryComponents entry) = true ∧
      Glob.roomOf 2 (entryComponents entry) ≤ 3 := by decide +kernel
  obtain ⟨hrelative, hstays, hroom⟩ := hfacts entry hentry
  exact ⟨hrelative, hstays, fun _ => hplain, 2, hreach, by omega⟩

end OneModule

open OneModule in
/-- The project has its module in two folders. -/
theorem discoverModules_relative_oneModule :
    (inFolder "v").Holds "/v" ["v"] project ∧ (inFolder "w").Holds "/w" ["w"] project ∧
    (∀ entry ∈ entries, EntryFits project "/v" entry) ∧ (∀ entry ∈ entries, EntryFits project "/w" entry) ∧
    ∃ modules : List Text, modules.Nodup ∧
      (discoverModules (inFolder "v") "/v" entries .empty).1.map (Path.relativeTo? "/v") = modules.map some ∧
      (discoverModules (inFolder "w") "/w" entries .empty).1.map (Path.relativeTo? "/w") = modules.map some := by
  have h : (inFolder "v").Holds "/v" ["v"] project := holds_inFolder (by decide) (by decide)
  have h' : (inFolder "w").Holds "/w" ["w"] project := holds_inFolder (by decide) (by decide)
  have hfits : ∀ entry ∈ entries, EntryFits project "/v" entry := entryFits (by decide) (by decide)
  have hfits' : ∀ entry ∈ entries, EntryFits project "/w" entry := entryFits (by decide) (by decide)
  exact ⟨h, h', hfits, hfits', discoverModules_relative h h' hfits hfits' .empty .empty⟩

open OneModule in
/-- In a folder whose name is read as a pattern the project loses its module: the pattern stands for another name. -/
theorem discoverModules_relative_false :
    ¬∀ (d d' tree : Disk) (root root' : Text) (p p' : Place) (entries : List Text),
      d.Holds root p tree → d'.Holds root' p' tree →
        (discoverModules d root entries .empty).1.map (Path.relativeTo? root) =
          (discoverModules d' root' entries .empty).1.map (Path.relativeTo? root') := by
  intro h
  have hsame := h (inFolder "v") (inFolder "[v]") project "/v" "/[v]" ["v"] ["[v]"] ["?"] (holds_inFolder (by decide) (by decide))
    (holds_inFolder (by decide) (by decide))
  have hfound : (discoverModules (inFolder "v") "/v" ["?"] .empty).1 = ["/v/m".toList] := by decide +kernel
  have hlost : (discoverModules (inFolder "[v]") "/[v]" ["?"] .empty).1 = [] := by decide +kernel
  rw [hfound, hlost] at hsame
  cases hsame

end LocalePages
