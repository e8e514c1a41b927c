import LocalePages.Glob.Expand
import LocalePages.Proofs.FileOrder
import LocalePages.Proofs.Paths
import LocalePages.Proofs.Writing
import Mathlib.Data.List.Induction

/-!
# Entries of folders

A path to an entry of a folder is followed to the folder first, so that all it does depends on what is under the name in the folder
alone: what is found, read and written there (`Disk.find?_join`, `Disk.read_join`, `Disk.write_join`) and which folders are made
(`Disk.createFolder_join`). A disk is a tree (`Disk.IsTree`) when each place comes once, all names are proper and only folders have
entries; then the files of a folder are told by what is at their places (`Disk.mem_files`).
-/

namespace LocalePages

namespace Disk

variable {d : Disk} {directory name : Text} {p : Place}

/-! ## Following a path to an entry -/

/-- What keeps a path from leading anywhere, whatever the disk. -/
def fault? (path : Text) : Option DiskError :=
  if path.contains '\x00' then some .nulInName else if pathLimit < Utf8.size path then some .nameTooLong else none

/-- A path leads where its pieces lead, unless it can lead nowhere. -/
theorem place_eq (d : Disk) {path : Text} (h : path ≠ []) :
    d.place path = match fault? path with
      | some e => .error e
      | none => d.walk (d.start path).1 (d.start path).2 := by
  unfold place resolve fault?
  cases hnul : path.contains '\x00' with
  | true => simp
  | false =>
    by_cases hlength : pathLimit < Utf8.size path
    · simp [hlength]
    · simp [hlength, h]

/-- A place is where the pieces of a path lead. -/
def Spells (d : Disk) (path : Text) (p : Place) : Prop := d.walk (d.start path).1 (d.start path).2 = .ok p

/-- A path that leads to a place has no fault, and its pieces lead there. -/
theorem spells_of_place {path : Text} (h : d.place path = .ok p) : fault? path = none ∧ d.Spells path p := by
  rw [place_eq d (ne_nil_of_place h)] at h
  split at h
  · cases h
  · rename_i hfault
    exact ⟨hfault, h⟩

/-- A path leads to what is where its pieces lead, unless it can lead nowhere. -/
theorem find?_of_spells {path : Text} (hne : path ≠ []) (h : d.Spells path p) :
    d.find? path = if (fault? path).isSome then none else d.entry? p := by
  rw [find?, place_eq d hne, h]
  cases fault? path <;> rfl

/-- The pieces of a path do not depend on the disk. -/
theorem start_snd (d : Disk) (path : Text) : (d.start path).2 = Path.segments path := by
  unfold start
  split <;> rfl

/-- An empty piece at the end of a way says nothing. -/
theorem walk_nil_piece {base : Place} (h : d.walk base [[]] = .ok p) : base = p := by
  rw [walk] at h
  split at h
  · cases h
  · exact Except.ok.inj h

/-- The pieces of an entry are followed from its folder. -/
theorem walk_lead (h : d.Spells directory p) (rest : List Text) :
    d.walk (d.start directory).1 (Path.leadPieces directory ++ rest) = d.walk p rest := by
  have hlead : d.walk (d.start directory).1 (Path.leadPieces directory) = .ok p := by
    rw [Spells, start_snd] at h
    unfold Path.leadPieces
    rcases Path.lead_cases directory with ⟨rfl, hlead⟩ | ⟨start, hlead, rfl | ⟨rfl, -⟩⟩
    · rw [hlead, ← walk_nil_piece h]
      rfl
    · have hpieces : Path.segments (start ++ ['/']) = Path.segments start ++ [[]] := Path.segments_append_slash start []
      rw [hpieces] at h
      obtain ⟨q, hwalk, hend⟩ := exists_of_walk_append h
      rw [hlead, hpieces, List.dropLast_concat, hwalk, walk_nil_piece hend]
    · have hpieces : Path.segments (directory ++ ['/']) = Path.segments directory ++ [[]] :=
        Path.segments_append_slash directory []
      rw [hlead, hpieces, List.dropLast_concat]
      exact h
  rw [walk_append, hlead]
  rfl

/-- An entry is sought from where its folder is sought. -/
theorem start_join (d : Disk) (directory : Text) (hname : Path.IsName name) :
    d.start (Path.join directory name) = ((d.start directory).1, Path.leadPieces directory ++ [name]) := by
  unfold start
  rw [Path.isAbsolute_join directory hname, Path.segments_join directory hname]
  split <;> rfl

/-- What is at the end of a way is sought from where its folder is sought. -/
theorem start_foldl_join (d : Disk) (directory : Text) {way : List Text} (hway : ∀ n ∈ way, Path.IsName n) (hne : way ≠ []) :
    d.start (way.foldl Path.join directory) = ((d.start directory).1, Path.leadPieces directory ++ way) := by
  unfold start
  rw [Path.isAbsolute_foldl_join directory hway, Path.segments_foldl_join directory hway hne]
  split <;> rfl

/-- The pieces of the path of an entry lead to the entry, if there is one. -/
theorem walk_join (hname : Path.IsName name) (h : d.Spells directory p)
    (hfolder : d.isFolderAt p = true) :
    d.walk (d.start (Path.join directory name)).1 (d.start (Path.join directory name)).2 =
      if (d.entry? (p ++ [name])).isNone then .error (missing name) else .ok (p ++ [name]) := by
  rw [start_join d directory hname, walk_lead h, walk_name d hfolder hname.2.1 hname.2.2]

/-- The path of an entry that is there spells it. -/
theorem Spells.join (h : d.Spells directory p) (hname : Path.IsName name)
    (hfolder : d.isFolderAt p = true) (hthere : d.entry? (p ++ [name]) ≠ none) :
    d.Spells (Path.join directory name) (p ++ [name]) := by
  rw [Spells, walk_join hname h hfolder, if_neg (by simpa using hthere)]

section

variable (hname : Path.IsName name) (h : d.Spells directory p) (hfolder : d.isFolderAt p = true)

include hname h hfolder

/-- Where the path of an entry leads. -/
theorem place_join : d.place (Path.join directory name) = match fault? (Path.join directory name) with
    | some e => .error e
    | none => if (d.entry? (p ++ [name])).isNone then .error (missing name) else .ok (p ++ [name]) := by
  rw [place_eq d (Path.join_ne_nil directory hname), walk_join hname h hfolder]

/-- What the path of an entry leads to. -/
theorem find?_join : d.find? (Path.join directory name) =
    if (fault? (Path.join directory name)).isSome then none else d.entry? (p ++ [name]) := by
  rw [find?, place_join hname h hfolder]
  cases fault? (Path.join directory name) with
  | some e => rfl
  | none =>
    cases hentry : d.entry? (p ++ [name]) with
    | none => rfl
    | some e => simp [hentry]

/-- What is read from the path of an entry. -/
theorem read_join : d.read (Path.join directory name) = match fault? (Path.join directory name), d.entry? (p ++ [name]) with
    | some e, _ => .error e
    | none, some (.file content _) => .ok content
    | none, some (.folder _) => .error .isFolder
    | none, none => .error (missing name) := by
  rw [read, place_join hname h hfolder]
  cases fault? (Path.join directory name) with
  | some e => rfl
  | none =>
    cases hentry : d.entry? (p ++ [name]) with
    | none => rfl
    | some e => cases e <;> simp [hentry]

/-- What is read from the path of an entry, if anything is, is what the file at its place holds. -/
theorem toOption_read_join : (d.read (Path.join directory name)).toOption =
    if (fault? (Path.join directory name)).isSome then none else d.contentAt? (p ++ [name]) := by
  rw [read_join hname h hfolder, contentAt?]
  cases fault? (Path.join directory name) with
  | some e => rfl
  | none => rcases d.entry? (p ++ [name]) with _ | ⟨⟩ | ⟨⟩ <;> rfl

/-- What is written to the path of an entry comes under its name in the folder. -/
theorem write_join (content : FileContent) :
    d.write (Path.join directory name) content = match fault? (Path.join directory name), d.entry? (p ++ [name]) with
      | some e, _ => .error e
      | none, some (.file _ executable) => .ok (d.put (p ++ [name]) (.file content executable))
      | none, some (.folder _) => .error .isFolder
      | none, none => if missing name = .notFound then .ok (d.put (p ++ [name]) (.file content false)) else .error (missing name) := by
  have hnew : d.newPlace (Path.join directory name) = .ok (p ++ [name]) := by
    have hlead := walk_lead h []
    rw [List.append_nil, walk] at hlead
    have hup : name ≠ ['.', '.'] := hname.2.2
    simp [newPlace, start_join d directory hname, hlead, hfolder, hname.2.1, hup]
  rw [write, place_join hname h hfolder]
  cases hfault : fault? (Path.join directory name) with
  | some e =>
    have he : e = .nulInName ∨ e = .nameTooLong := by
      unfold fault? at hfault
      split at hfault
      · exact Or.inl (Option.some.inj hfault).symm
      · split at hfault
        · exact Or.inr (Option.some.inj hfault).symm
        · cases hfault
    rcases he with rfl | rfl <;> rfl
  | none =>
    cases hentry : d.entry? (p ++ [name]) with
    | none =>
      have hmissing : missing name = .notFound ∨ missing name = .nameTooLong := by
        unfold missing
        split
        · exact Or.inr rfl
        · exact Or.inl rfl
      rcases hmissing with hmissing | hmissing <;> simp [hmissing, hnew]
    | some e => cases e <;> simp [hentry]

end

/-! ## Making folders in a folder -/

/-- What a way to a folder goes through is a folder. -/
theorem isFolderAt_of_walk {base : Place} {pieces : List Text} (h : d.walk base pieces = .ok p) (hp : d.isFolderAt p = true) :
    d.isFolderAt base = true := by
  cases pieces with
  | nil =>
    cases h
    exact hp
  | cons next pieces =>
    exact (walk_cons_eq_ok_iff.1 h).1

/-- The next step of a way is a name. -/
theorem walk_cons (d : Disk) (p : Place) (hname : Path.IsName name) (rest : List Text) :
    d.walk p (name :: rest) =
      if !d.isFolderAt p then .error .notFolder
      else if (d.entry? (p ++ [name])).isNone then .error (missing name) else d.walk (p ++ [name]) rest := by
  rw [walk, hname.2.1, if_neg Bool.false_ne_true, if_neg hname.2.2]

/-- The next folder on the way has a name. -/
theorem makeFolders_cons (d : Disk) (p : Place) (hname : Path.IsName name) (rest : List Text) :
    d.makeFolders p (name :: rest) = match d.entry? (p ++ [name]) with
      | some (.folder _) => d.makeFolders (p ++ [name]) rest
      | some (.file _ _) => .error (if rest.all Path.isIdle then .exists else .notFolder)
      | none =>
        if missing name = .notFound then (d.put (p ++ [name]) (.folder true)).makeFolders (p ++ [name]) rest
        else .error (missing name) := by
  have hidle : ¬Path.isIdle name = true := hname.2.1 ▸ Bool.false_ne_true
  have hup : ¬name = ".." := hname.2.2
  exact (if_neg hidle).trans (if_neg hup)

/-- On the way to a folder that is there no folder is made. -/
theorem makeFolders_of_walk {base : Place} {pieces : List Text} (h : d.walk base pieces = .ok p) (hfolder : d.isFolderAt p = true)
    (rest : List Text) : d.makeFolders base (pieces ++ rest) = d.makeFolders p rest := by
  induction pieces generalizing base with
  | nil =>
    cases h
    rfl
  | cons piece pieces ih =>
    obtain ⟨-, next, hrest, hnext⟩ := walk_cons_eq_ok_iff.1 h
    have hthere := isFolderAt_of_walk hrest hfolder
    rw [List.cons_append, makeFolders]
    rcases hnext with ⟨hidle, rfl⟩ | ⟨rfl, rfl⟩ | ⟨hidle, hup, rfl, -⟩
    · rw [if_pos hidle]
      exact ih hrest
    · rw [if_neg (by decide), if_pos rfl]
      exact ih hrest
    · rw [if_neg (Bool.eq_false_iff.1 hidle), if_neg hup]
      unfold isFolderAt at hthere
      split at hthere
      · rename_i writable hentry
        rw [hentry]
        exact ih hrest
      · cases hthere

/-- A walk does not fail for a NUL. -/
theorem walk_ne_nulInName (d : Disk) (base : Place) (pieces : List Text) : d.walk base pieces ≠ .error .nulInName := by
  induction pieces generalizing base with
  | nil => simp [walk]
  | cons piece pieces ih =>
    rw [walk]
    split
    · simp
    · split
      · exact ih base
      · split
        · exact ih _
        · split
          · unfold missing
            split <;> simp
          · exact ih _

/-- Which folders are made for the path along a way. -/
theorem createFolder_foldl_join {way : List Text} (hway : ∀ n ∈ way, Path.IsName n) (hne : way ≠ []) (h : d.Spells directory p)
    (hfolder : d.isFolderAt p = true) :
    d.createFolder (way.foldl Path.join directory) =
      match fault? (way.foldl Path.join directory), d.walk p way with
      | some e, _ => .error e
      | none, .error .nameTooLong => .error .nameTooLong
      | none, _ => d.makeFolders p way := by
  have hmade : d.makeFolders (d.start directory).1 (Path.leadPieces directory ++ way) = d.makeFolders p way := by
    have hlead := walk_lead h []
    rw [List.append_nil, walk] at hlead
    exact makeFolders_of_walk hlead hfolder _
  rw [createFolder, place_eq d (Path.foldl_join_ne_nil directory hway hne), start_foldl_join d directory hway hne, walk_lead h, hmade]
  cases hfault : fault? (way.foldl Path.join directory) with
  | some e =>
    unfold fault? at hfault
    split at hfault
    · cases hfault
      rfl
    · split at hfault
      · cases hfault
        rfl
      · cases hfault
  | none =>
    cases hwalk : d.walk p way with
    | ok q => rfl
    | error e =>
      -- names are not looked at for a NUL
      have hnul : e ≠ .nulInName := by
        rintro rfl
        exact walk_ne_nulInName _ _ _ hwalk
      cases e <;> first | rfl | exact absurd rfl hnul

/-- Which folders are made for the path of an entry of an entry. -/
theorem createFolder_join {inner : Text} (hname : Path.IsName name) (hinner : Path.IsName inner) (h : d.Spells directory p)
    (hfolder : d.isFolderAt p = true) :
    d.createFolder (Path.join (Path.join directory name) inner) =
      match fault? (Path.join (Path.join directory name) inner), d.walk p [name, inner] with
      | some e, _ => .error e
      | none, .error .nameTooLong => .error .nameTooLong
      | none, _ => d.makeFolders p [name, inner] :=
  createFolder_foldl_join (List.forall_mem_cons.2 ⟨hname, List.forall_mem_singleton.2 hinner⟩) (List.cons_ne_nil _ _) h hfolder

/-! ## Trees -/

/-- Whether each place comes once on a disk, all names are proper and only folders have entries. -/
structure IsTree (d : Disk) : Prop where
  nodup : (d.entries.map Prod.fst).Nodup
  names : ∀ p, d.entry? p ≠ none → ∀ name ∈ p, Path.IsName name
  parents : ∀ p name, d.entry? (p ++ [name]) ≠ none → d.isFolderAt p = true

namespace IsTree

/-- Whether a disk is a tree is told by its entries one by one. -/
theorem of_entries (hnodup : (d.entries.map Prod.fst).Nodup)
    (hentries : ∀ x ∈ d.entries, (∀ name ∈ x.1, Path.IsName name) ∧ d.isFolderAt x.1.dropLast = true) : d.IsTree := by
  have hthere : ∀ p, p ≠ [] → d.entry? p ≠ none → ∃ e, (p, e) ∈ d.entries := by
    intro p hp hsome
    obtain ⟨e, he⟩ := Option.ne_none_iff_exists'.1 hsome
    rw [Disk.entry?, if_neg (by simpa using hp), Members.get?_eq_some_iff hnodup] at he
    exact ⟨e, he⟩
  refine ⟨hnodup, fun p hp name hname => ?_, fun p name hp => ?_⟩
  · obtain ⟨e, he⟩ := hthere p (List.ne_nil_of_mem hname) hp
    exact (hentries _ he).1 name hname
  · obtain ⟨e, he⟩ := hthere _ (by simp) hp
    simpa using (hentries _ he).2

/-- What is on the way to an entry is a folder. -/
theorem isFolderAt_of_entry? (h : d.IsTree) {way : Place} (hway : way ≠ []) (hthere : d.entry? (p ++ way) ≠ none) :
    d.isFolderAt p = true := by
  induction way using List.reverseRecOn with
  | nil => exact absurd rfl hway
  | append_singleton before name ih =>
    have hparent : d.isFolderAt (p ++ before) = true := h.parents (p ++ before) name (by rwa [List.append_assoc])
    rcases List.eq_nil_or_concat before with rfl | ⟨start, last, rfl⟩
    · rwa [List.append_nil] at hparent
    · exact ih (by simp) (entry?_ne_none_of_isFolderAt hparent)

/-- A tree with another file, or with a new folder, in a folder is one. -/
theorem put (h : d.IsTree) {folder : Place} {e : DiskEntry} (hfolder : d.isFolderAt folder = true) (hname : Path.IsName name)
    (hno : d.isFolderAt (folder ++ [name]) = false) : (d.put (folder ++ [name]) e).IsTree := by
  have hne : folder ++ [name] ≠ [] := by simp
  refine ⟨?_, fun p hp n hn => ?_, fun p n hp => ?_⟩
  · exact Members.nodup_put _ _ h.nodup
  · rw [entry?_put d _ p hne] at hp
    by_cases hsame : folder ++ [name] = p
    · subst hsame
      rcases List.mem_append.1 hn with hn | hn
      · exact h.names folder (entry?_ne_none_of_isFolderAt hfolder) n hn
      · rwa [List.mem_singleton.1 hn]
    · rw [if_neg hsame] at hp
      exact h.names p hp n hn
  · -- the parent of what is there is no other place than before
    have hstays : ∀ q, d.isFolderAt q = true → (d.put (folder ++ [name]) e).isFolderAt q = true := by
      intro q hq
      have hother : folder ++ [name] ≠ q := by
        rintro rfl
        rw [hno] at hq
        cases hq
      rwa [isFolderAt, entry?_put d _ q hne, if_neg hother]
    rw [entry?_put d _ _ hne] at hp
    by_cases hsame : folder ++ [name] = p ++ [n]
    · obtain ⟨rfl, -⟩ := List.append_inj' hsame rfl
      exact hstays _ hfolder
    · rw [if_neg hsame] at hp
      exact hstays p (h.parents p n hp)

/-- In a tree, names lead to what is there. -/
theorem walk_way (htree : d.IsTree) {way : Place} (hfolder : d.isFolderAt p = true) (hthere : d.entry? (p ++ way) ≠ none) :
    d.walk p way = .ok (p ++ way) := by
  induction way generalizing p with
  | nil => rw [List.append_nil, walk]
  | cons name way ih =>
    have hsplit : p ++ name :: way = p ++ [name] ++ way := by simp
    have hname : Path.IsName name := htree.names _ hthere name (by simp)
    rw [hsplit] at hthere ⊢
    rw [walk_cons d p hname, hfolder, Bool.not_true, if_neg Bool.false_ne_true]
    rcases List.eq_nil_or_concat way with rfl | ⟨_, _, rfl⟩
    · rw [List.append_nil] at hthere ⊢
      rw [if_neg (by simpa using hthere), walk]
    · have hnext : d.isFolderAt (p ++ [name]) = true := htree.isFolderAt_of_entry? (by simp) hthere
      rw [if_neg (by simpa using entry?_ne_none_of_isFolderAt hnext)]
      exact ih hnext hthere

/-- In a tree, the path along a way spells the place at its end. -/
theorem spells_foldl_join (htree : d.IsTree) (h : d.Spells directory p) {way : Place} (hfolder : d.isFolderAt p = true)
    (hthere : d.entry? (p ++ way) ≠ none) : d.Spells (way.foldl Path.join directory) (p ++ way) := by
  by_cases hne : way = []
  · rw [hne, List.append_nil]
    exact h
  · have hway : ∀ n ∈ way, Path.IsName n := fun n hn => htree.names _ hthere n (List.mem_append_right _ hn)
    rw [Spells, start_foldl_join d directory hway hne, walk_lead h]
    exact htree.walk_way hfolder hthere

/-- In a tree, the path along a way from a tidy one is tidy and spells the place at its end. -/
theorem spells_way (htree : d.IsTree) (htidy : Path.IsTidy directory) (h : d.Spells directory p) {way : Place}
    (hfolder : d.isFolderAt p = true) (hthere : d.entry? (p ++ way) ≠ none) :
    d.Spells (way.foldl Path.join directory) (p ++ way) ∧ Path.IsTidy (way.foldl Path.join directory) :=
  ⟨htree.spells_foldl_join h hfolder hthere,
    Path.isTidy_foldl_join htidy fun n hn => htree.names _ hthere n (List.mem_append_right _ hn)⟩

/-! ## The files of a folder -/

/-- The way that an entry of a disk has from a folder: it is a file, and its place goes on from the folder. -/
theorem way_eq_some_iff {q way : Place} {e : DiskEntry} :
    (match p.isPrefixOf? q, e with
      | some (name :: rest), .file _ _ => some (name :: rest)
      | _, _ => none) = some way ↔ way ≠ [] ∧ q = p ++ way ∧ ∃ content executable, e = .file content executable := by
  constructor
  · intro h
    split at h
    · rename_i name rest content executable hprefix
      cases h
      exact ⟨by simp, (List.append_eq_of_isPrefixOf?_eq_some hprefix).symm, content, executable, rfl⟩
    · cases h
  · rintro ⟨hne, rfl, content, executable, rfl⟩
    obtain ⟨name, rest, rfl⟩ := List.exists_cons_of_ne_nil hne
    rw [List.isPrefixOf?_eq_some_iff_append_eq.2 rfl]

/-- A way leads to a file exactly when it is listed. -/
theorem mem_files (h : d.IsTree) {way : Place} :
    way ∈ d.files p ↔ way ≠ [] ∧ ∃ content executable, d.entry? (p ++ way) = some (.file content executable) := by
  rw [files, List.mem_mergeSort, List.mem_filterMap]
  constructor
  · rintro ⟨⟨q, e⟩, hin, hway⟩
    obtain ⟨hne, rfl, content, executable, rfl⟩ := way_eq_some_iff.1 hway
    refine ⟨hne, content, executable, ?_⟩
    rw [Disk.entry?, if_neg (by simp [hne]), Members.get?_eq_some_iff h.nodup]
    exact hin
  · rintro ⟨hne, content, executable, hentry⟩
    rw [Disk.entry?, if_neg (by simp [hne]), Members.get?_eq_some_iff h.nodup] at hentry
    exact ⟨_, hentry, way_eq_some_iff.2 ⟨hne, rfl, content, executable, rfl⟩⟩

/-- What comes from different entries of a disk is different when it tells the place that it comes from. -/
theorem nodup_filterMap (h : d.IsTree) {α : Type} {f : Place × DiskEntry → Option α} (origin : α → Place)
    (horigin : ∀ entry a, f entry = some a → entry.1 = origin a) : (d.entries.filterMap f).Nodup := by
  have hsublist : ∀ entries : List (Place × DiskEntry), ((entries.filterMap f).map origin).Sublist (entries.map Prod.fst) := by
    intro entries
    induction entries with
    | nil => exact .slnil
    | cons first entries ih =>
      rw [List.filterMap_cons]
      split
      · exact ih.cons _
      · rename_i a ha
        rw [List.map_cons, List.map_cons, horigin first a ha]
        exact ih.cons_cons _
  exact ((hsublist d.entries).nodup h.nodup).of_map _

/-- Each way is listed once. -/
theorem nodup_files (h : d.IsTree) (p : Place) : (d.files p).Nodup := by
  refine (List.mergeSort_perm _ _).nodup_iff.2 (h.nodup_filterMap (p ++ ·) ?_)
  rintro ⟨q, e⟩ way hway
  exact (way_eq_some_iff.1 hway).2.1

end IsTree

/-- The same files of a folder are listed in the same order. -/
theorem filter_files_congr {d' : Disk} (h : d.IsTree) (h' : d'.IsTree) {wanted : Place → Bool}
    (hsame : ∀ way, way ≠ [] → (∀ name ∈ way, Path.IsName name) → wanted way = true →
      ((∃ content executable, d'.entry? (p ++ way) = some (.file content executable)) ↔
        ∃ content executable, d.entry? (p ++ way) = some (.file content executable))) :
    (d'.files p).filter wanted = (d.files p).filter wanted := by
  have hnames : ∀ {e : Disk} {way : Place}, e.IsTree →
      (∃ content executable, e.entry? (p ++ way) = some (.file content executable)) → ∀ name ∈ way, Path.IsName name :=
    fun htree ⟨_, _, hentry⟩ name hname => htree.names _ (hentry ▸ Option.some_ne_none _) name (List.mem_append_right _ hname)
  refine eq_of_perm_of_sorted ?_ ((sorted_files d' p).filter _) ((sorted_files d p).filter _)
  refine (List.perm_ext_iff_of_nodup ((h'.nodup_files p).filter _) ((h.nodup_files p).filter _)).2 fun way => ?_
  rw [List.mem_filter, List.mem_filter, h.mem_files, h'.mem_files]
  constructor
  · rintro ⟨⟨hne, hfile⟩, hwanted⟩
    exact ⟨⟨hne, (hsame way hne (hnames h' hfile) hwanted).1 hfile⟩, hwanted⟩
  · rintro ⟨⟨hne, hfile⟩, hwanted⟩
    exact ⟨⟨hne, (hsame way hne (hnames h hfile) hwanted).2 hfile⟩, hwanted⟩

end Disk

end LocalePages
