import LocalePages.Project.Root
import LocalePages.Proofs.PathSizes
import Mathlib.Data.List.Infix

/-!
# The nearest configuration

The folders around a path from the root are the paths of the shorter and shorter beginnings of its components
(`Project.around_spec`), and a path to an entry of a folder leads somewhere exactly when the folder holds the entry
(`Disk.has_join_iff_folderHas`). So the configuration of a project is the one of the first of these folders that holds one, when no
folder before it holds one or starts a repository, and the root of the project is that folder (`Project.load_nearest`).
-/

namespace LocalePages

namespace Path

variable {path : Text}

/-- A path from the root is the root, or its parent is a path from the root that says one component less. -/
theorem parent?_cases (h : isAbsolute path = true) :
    (components path = [.root] ∧ parent? path = none) ∨
      ∃ parent c, parent? path = some parent ∧ isAbsolute parent = true ∧ components path = components parent ++ [c] := by
  have hcomponents := components_of_isAbsolute h
  obtain hnone | ⟨before, piece, hsaying⟩ := (saying path).eq_nil_or_concat'
  · rw [hnone, List.map_nil] at hcomponents
    refine Or.inl ⟨hcomponents, ?_⟩
    rw [parent?, hcomponents]
    rfl
  · have hlast : (components path).getLast? = some (componentOf piece) := by
      rw [hcomponents, hsaying, List.map_append, ← List.cons_append]
      exact List.getLast?_concat
    have hname : componentOf piece ≠ .root ∧ componentOf piece ≠ .here := by
      unfold componentOf
      split <;> simp
    obtain ⟨parent, hparent, hparts⟩ := components_of_getLast? hlast hname.1 hname.2
    refine Or.inr ⟨parent, _, hparent, ?_, hparts⟩
    rw [isAbsolute_iff, hparts] at h
    rw [isAbsolute_iff]
    cases hfirst : components parent with
    | nil =>
      rw [hfirst] at h
      exact absurd (Option.some.inj h) hname.1
    | cons first rest =>
      rw [hfirst] at h
      exact h

/-- A text has at most one piece more than characters. -/
theorem length_segments_le (path : Text) : (segments path).length ≤ path.length + 1 := by
  unfold segments List.splitOn
  induction path with
  | nil => exact Nat.le_refl 1
  | cons c path ih =>
    rw [List.splitOnP_cons_eq_if_modifyHead]
    split
    · exact Nat.succ_le_succ ih
    · rw [List.length_modifyHead]
      exact Nat.le_succ_of_le ih

/-- A path from the root has at most one component more than characters. -/
theorem length_components_le (h : isAbsolute path = true) : (components path).length ≤ path.length + 1 := by
  obtain ⟨rest, rfl⟩ := exists_of_isAbsolute h
  have hpieces : saying ('/' :: rest) = saying rest := saying_append_slash [] rest
  rw [components_of_isAbsolute h, hpieces, List.length_cons, List.length_map, List.length_cons]
  exact Nat.succ_le_succ ((List.length_filter_le _ _).trans (length_segments_le rest))

end Path

namespace Disk

variable {d : Disk} {folder name : Text} {p : Place}

/-- Whether a path leads to a folder that has an entry of a name. The path of the entry must be one that can lead somewhere. -/
def FolderHas (d : Disk) (folder name : Text) : Prop :=
  fault? (Path.join folder name) = none ∧ ∃ p, d.place folder = .ok p ∧ d.isFolderAt p = true ∧ d.entry? (p ++ [name]) ≠ none

/-- The pieces of a path lead to the folder that the pieces before an entry lead to. -/
theorem spells_of_walk_lead (h : d.walk (d.start folder).1 (Path.leadPieces folder) = .ok p) (hfolder : d.isFolderAt p = true) :
    d.Spells folder p := by
  -- an empty piece at the end stays in the folder
  have hstays : ∀ pieces, d.walk (d.start folder).1 pieces = .ok p → d.walk (d.start folder).1 (pieces ++ [[]]) = .ok p := by
    intro pieces hpieces
    rw [walk_append, hpieces]
    exact walk_cons_eq_ok_iff.2 ⟨hfolder, p, rfl, Or.inl ⟨rfl, rfl⟩⟩
  rw [Spells, start_snd]
  unfold Path.leadPieces at h
  rcases Path.lead_cases folder with ⟨rfl, hlead⟩ | ⟨start, hlead, hstart⟩
  · rw [hlead] at h
    exact hstays [] h
  · have hpieces : Path.segments (start ++ ['/']) = Path.segments start ++ [[]] := Path.segments_append_slash start []
    rw [hlead, hpieces, List.dropLast_concat] at h
    rcases hstart with hslash | ⟨hsame, -⟩
    · have hend := hstays _ h
      rwa [← hpieces, ← hslash] at hend
    · rwa [← hsame] at h

/-- A path leads to an entry of a folder exactly when the folder has the entry. -/
theorem has_join_iff_folderHas (hne : folder ≠ []) (hname : Path.IsName name) :
    d.has (Path.join folder name) = true ↔ d.FolderHas folder name := by
  constructor
  · intro h
    obtain ⟨e, he⟩ := Option.isSome_iff_exists.1 h
    unfold find? at he
    split at he
    · rename_i q hplace
      obtain ⟨hfault, hspells⟩ := spells_of_place hplace
      rw [Spells, start_join d folder hname] at hspells
      obtain ⟨p, hlead, hstep⟩ := exists_of_walk_append hspells
      obtain ⟨hfolder, next, -, hnext⟩ := walk_cons_eq_ok_iff.1 hstep
      have hthere : d.place folder = .ok p := by
        rw [place_eq d hne, fault?_eq_none_of_sublist (Path.sublist_join folder hname) hfault]
        exact spells_of_walk_lead hlead hfolder
      rcases hnext with ⟨hidle, -⟩ | ⟨hup, -⟩ | ⟨-, -, rfl, hentry⟩
      · exact absurd (hidle.symm.trans hname.2.1) (by decide)
      · exact absurd hup hname.2.2
      · exact ⟨hfault, p, hthere, hfolder, hentry⟩
    · cases he
  · rintro ⟨hfault, p, hplace, hfolder, hentry⟩
    rw [has, find?_join hname (spells_of_place hplace).2 hfolder, hfault]
    exact Option.isSome_iff_ne_none.2 hentry

/-- A way that does not go up leads to the place of its names. -/
theorem eq_append_of_walk {base : Place} {pieces : List Text} (h : d.walk base pieces = .ok p)
    (hup : ∀ piece ∈ pieces, piece ≠ "..") : p = base ++ pieces.filter fun piece => !Path.isIdle piece := by
  induction pieces generalizing base with
  | nil =>
    cases h
    exact (List.append_nil _).symm
  | cons piece pieces ih =>
    obtain ⟨-, next, hrest, hnext⟩ := walk_cons_eq_ok_iff.1 h
    obtain ⟨hpiece, hpieces⟩ := List.forall_mem_cons.1 hup
    have hp := ih hrest hpieces
    rcases hnext with ⟨hidle, rfl⟩ | ⟨rfl, -⟩ | ⟨hidle, -, rfl, -⟩
    · rw [List.filter_cons_of_neg (by simp [hidle]), hp]
    · exact absurd rfl hpiece
    · rw [List.filter_cons_of_pos (by simp [hidle]), hp, List.append_assoc]
      rfl

/-- A path from the root that does not go up has the names of the place that it leads to. -/
theorem components_of_place (h : d.place folder = .ok p) (habsolute : Path.isAbsolute folder = true)
    (hup : .up ∉ Path.components folder) : Path.components folder = .root :: p.map .name := by
  have hspells := (spells_of_place h).2
  rw [Spells, start, if_pos habsolute] at hspells
  rw [Path.components_of_isAbsolute habsolute] at hup ⊢
  have hnames : ∀ piece ∈ Path.saying folder, Path.componentOf piece = .name piece := by
    intro piece hpiece
    rw [Path.componentOf, if_neg]
    rintro rfl
    exact hup (List.mem_cons_of_mem _ (List.mem_map_of_mem hpiece))
  have hp : p = Path.saying folder := eq_append_of_walk hspells fun piece hpiece => by
    rintro rfl
    cases hnames ".." (List.mem_filter.2 ⟨hpiece, rfl⟩)
  rw [hp, List.map_congr_left hnames]

end Disk

namespace Project

variable {d : Disk} {start : Text}

/-- The folders around a path from the root have the beginnings of its components, and they are paths from the root. -/
theorem around_spec {path : Text} (h : Path.isAbsolute path = true) {fuel : Nat} (hfuel : (Path.components path).length ≤ fuel + 1) :
    (around fuel path).map Path.components = (Path.components path).inits.tail.reverse ∧
      ∀ folder ∈ around fuel path, Path.isAbsolute folder = true := by
  induction fuel generalizing path with
  | zero =>
    obtain ⟨hroot, -⟩ | ⟨parent, c, -, habsolute, hparts⟩ := Path.parent?_cases h
    · simp [around, hroot, h]
    · rw [hparts, Path.components_of_isAbsolute habsolute] at hfuel
      simp at hfuel
  | succ fuel ih =>
    obtain ⟨hroot, hnone⟩ | ⟨parent, c, hparent, habsolute, hparts⟩ := Path.parent?_cases h
    · simp [around, hroot, hnone, h]
    · rw [hparts, List.length_append, List.length_singleton] at hfuel
      obtain ⟨hcomponents, hall⟩ := ih habsolute (Nat.le_of_succ_le_succ hfuel)
      have haround : around (fuel + 1) path = path :: around fuel parent := by rw [around, hparent]
      rw [haround]
      refine ⟨?_, List.forall_mem_cons.2 ⟨h, hall⟩⟩
      have hinits : (Path.components parent).inits ≠ [] := List.ne_nil_of_length_pos (by rw [List.length_inits]; exact Nat.succ_pos _)
      rw [List.map_cons, hcomponents, hparts, List.inits_append, List.tail_append_of_ne_nil hinits, List.reverse_append]
      rfl

/-- The path itself is the first of the folders around it. -/
theorem head?_around (fuel : Nat) (path : Text) : (around fuel path).head? = some path := by
  cases fuel with
  | zero => rfl
  | succ fuel =>
    rw [around]
    split <;> rfl

/-- The configuration among folders is that of the first one that has one, unless one before it starts a repository. -/
theorem configAmong?_eq_some_iff {folders : List Text} {file : Text} :
    configAmong? d folders = some file ↔
      ∃ inner folder outer, folders = inner ++ folder :: outer ∧ file = Path.join folder configFileName ∧
        d.has (Path.join folder configFileName) = true ∧
        ∀ f ∈ inner, ¬d.has (Path.join f configFileName) = true ∧ ¬d.has (Path.join f repositoryMark) = true := by
  induction folders with
  | nil => simp [configAmong?]
  | cons first rest ih =>
    rw [configAmong?]
    constructor
    · intro h
      split at h
      · rename_i hconfig
        exact ⟨[], first, rest, rfl, (Option.some.inj h).symm, hconfig, nofun⟩
      · rename_i hconfig
        split at h
        · cases h
        · rename_i hmark
          obtain ⟨inner, folder, outer, rfl, hfile, hfound, hinner⟩ := ih.1 h
          exact ⟨first :: inner, folder, outer, rfl, hfile, hfound, List.forall_mem_cons.2 ⟨⟨hconfig, hmark⟩, hinner⟩⟩
    · rintro ⟨inner, folder, outer, hfolders, hfile, hfound, hinner⟩
      cases inner with
      | nil =>
        obtain ⟨rfl, -⟩ := List.cons.inj hfolders
        rw [if_pos hfound, hfile]
      | cons f inner =>
        obtain ⟨rfl, hrest⟩ := List.cons.inj hfolders
        obtain ⟨⟨hconfig, hmark⟩, hinner⟩ := List.forall_mem_cons.1 hinner
        rw [if_neg hconfig, if_neg hmark]
        exact ih.2 ⟨inner, folder, outer, hrest, hfile, hfound, hinner⟩

/-- The project of a folder whose configuration can be read has the folder as its root. -/
theorem load_eq_ok_iff {folder : Text} (h : configFile? d start = some (Path.join folder configFileName)) :
    ∃ root, Path.components root = Path.components folder ∧ ∀ project, load d start = .ok project ↔
      ∃ t config, d.readText (Path.join folder configFileName) = .ok t ∧ Config.parse? t = some config ∧ config.check = .ok () ∧
        project = ⟨config, true, root⟩ := by
  have hname : Path.fileName? (Path.join folder configFileName) = some configFileName := Path.fileName?_join folder (by decide)
  obtain ⟨root, hparent, hroot⟩ := Path.components_of_fileName? hname
  rw [Path.components_join folder (by decide)] at hroot
  refine ⟨root, (List.append_cancel_right hroot).symm, fun project => ?_⟩
  rw [load, h]
  dsimp only
  rw [hparent, Option.getD_some]
  cases hread : d.readText (Path.join folder configFileName) with
  | error e => simp
  | ok t =>
    cases hparse : Config.parse? t with
    | none => simp [hparse]
    | some config =>
      cases hcheck : config.check with
      | error e => simp [hparse, hcheck]
      | ok u => simp [hparse, hcheck, eq_comm]

/-- The configuration of a folder is sought in the folder itself and then in the folders around it, up to the root of the disk: the
paths of the shorter and shorter beginnings of its components, which lead to the places around its own place unless the path goes
up. It is the one that the first of them has which has one, when none before it has one or starts a repository. Where there is none,
the defaults hold and the root is the folder; else the root is the folder that has the configuration, if this can be read and
passes its check. -/
theorem load_nearest (d : Disk) {start : Text} (h : Path.isAbsolute start = true) :
    let folders := around start.length start
    (folders.head? = some start ∧ folders.map Path.components = (Path.components start).inits.tail.reverse) ∧
      (.up ∉ Path.components start → ∀ folder ∈ folders, ∀ p, d.place folder = .ok p →
        Path.components folder = .root :: p.map .name) ∧
      (∀ file, configFile? d start = some file ↔
        ∃ inner folder outer, folders = inner ++ folder :: outer ∧ file = Path.join folder configFileName ∧
          d.FolderHas folder configFileName ∧ ∀ f ∈ inner, ¬d.FolderHas f configFileName ∧ ¬d.FolderHas f repositoryMark) ∧
      (configFile? d start = none → load d start = .ok ⟨.default, false, start⟩) ∧
      (∀ folder ∈ folders, configFile? d start = some (Path.join folder configFileName) →
        ∃ root, Path.components root = Path.components folder ∧ ∀ project, load d start = .ok project ↔
          ∃ t config, d.readText (Path.join folder configFileName) = .ok t ∧ Config.parse? t = some config ∧ config.check = .ok () ∧
            project = ⟨config, true, root⟩) := by
  intro folders
  obtain ⟨hcomponents, habsolute⟩ := around_spec h (Path.length_components_le h)
  have hne : ∀ folder ∈ folders, folder ≠ [] := by
    rintro folder hfolder rfl
    cases habsolute _ hfolder
  have hhas : ∀ folder ∈ folders, ∀ name, Path.IsName name → (d.has (Path.join folder name) = true ↔ d.FolderHas folder name) :=
    fun folder hfolder name hname => Disk.has_join_iff_folderHas (hne folder hfolder) hname
  refine ⟨⟨head?_around _ _, hcomponents⟩, fun hup folder hfolder p hplace => ?_, fun file => ?_, fun hnone => ?_,
    fun folder _ => load_eq_ok_iff⟩
  · refine Disk.components_of_place hplace (habsolute folder hfolder) fun hin => hup ?_
    have hinit : Path.components folder ∈ (Path.components start).inits.tail.reverse := hcomponents ▸ List.mem_map_of_mem hfolder
    exact ((List.mem_inits _ _).1 (List.mem_of_mem_tail (List.mem_reverse.1 hinit))).subset hin
  · rw [configFile?, configAmong?_eq_some_iff]
    refine exists₃_congr fun inner folder outer => and_congr_right fun hfolders => and_congr_right fun _ => ?_
    have hall : ∀ f ∈ inner ++ folder :: outer, ∀ name, Path.IsName name →
        (d.has (Path.join f name) = true ↔ d.FolderHas f name) := hfolders ▸ hhas
    obtain ⟨hinner, hrest⟩ := List.forall_mem_append.1 hall
    refine and_congr (hrest folder List.mem_cons_self _ (by decide)) (forall₂_congr fun f hf => ?_)
    exact and_congr (not_congr (hinner f hf _ (by decide))) (not_congr (hinner f hf _ (by decide)))
  · rw [load, hnone]

namespace NestedWitness

/-- A repository with a configuration, and a repository inside it that has none. -/
def disk : Disk :=
  ⟨[(["srv"], .folder true), (["srv", ".git"], .folder true), (["srv", ".mgettextrc.json"], .file (.text "{}") false),
    (["srv", "app"], .folder true), (["srv", "lib"], .folder true), (["srv", "lib", ".git"], .folder true),
    (["srv", "lib", "web"], .folder true)], []⟩

end NestedWitness

open NestedWitness in
/-- The configuration beside the mark of a repository counts for the folders of the repository, but not for those of a repository
inside it. -/
theorem load_nearest_nested :
    Path.isAbsolute "/srv/app" = true ∧ (∃ project, load disk "/srv/app" = .ok project ∧ project.fromFile = true ∧
      Path.components project.root = [.root, .name "srv"]) ∧
    Path.isAbsolute "/srv/lib/web" = true ∧ load disk "/srv/lib/web" = .ok ⟨.default, false, "/srv/lib/web"⟩ := by
  have happ : configFile? disk "/srv/app" = some (Path.join "/srv" configFileName) := by decide +kernel
  have hlib : configFile? disk "/srv/lib/web" = none := by decide +kernel
  have hstart : Path.isAbsolute "/srv/app" = true ∧ Path.isAbsolute "/srv/lib/web" = true := ⟨rfl, rfl⟩
  obtain ⟨-, -, -, -, hload⟩ := load_nearest disk hstart.1
  obtain ⟨root, hroot, hproject⟩ := hload "/srv" (by decide +kernel) happ
  obtain ⟨-, -, -, hdefault, -⟩ := load_nearest disk hstart.2
  refine ⟨hstart.1, ⟨⟨.default, true, root⟩, (hproject _).2 ⟨"{}", .default, ?_, ?_, ?_, rfl⟩, rfl, hroot.trans ?_⟩, hstart.2,
    hdefault hlib⟩
  all_goals decide +kernel

end Project

end LocalePages
