import LocalePages.Disk.Changes
import LocalePages.Proofs.Entries
import LocalePages.Proofs.LocaleNames

/-!
# Work in a folder

Work that writes in one folder leaves what is elsewhere as it was (`Disk.Within`), and does the same in it on two disks that are
alike there (`Disk.AlikeIn`). By-products are left out of the comparison, since a tool that makes them may do so as it likes: whether
there is one, and what it holds, nothing else depends on. Folders stay where they are, and so do catalogs, so that what was found on
the way to a folder is found later (`Disk.Leads.within`).
-/

namespace LocalePages

/-- Whether a place is one of a by-product. -/
def Place.IsByproduct (p : Place) : Prop := ∃ name, p.getLast? = some name ∧ Text.isByproduct name = true

theorem Place.isByproduct_append_iff {p : Place} {name : Text} :
    Place.IsByproduct (p ++ [name]) ↔ Text.isByproduct name = true := by
  simp [Place.IsByproduct]

/-- Whether the name of a place ends in this. -/
def Place.EndsIn (p : Place) (ending : Text) : Prop := ∃ name, p.getLast? = some name ∧ Text.endsWith name ending = true

theorem Place.endsIn_append_iff {p : Place} {name ending : Text} :
    Place.EndsIn (p ++ [name]) ending ↔ Text.endsWith name ending = true := by
  simp [Place.EndsIn]

namespace Disk

/-- Whether two disks have the same at a place, but for a by-product. -/
def SameAt (d d' : Disk) (p : Place) : Prop :=
  (¬p.IsByproduct → d'.entry? p = d.entry? p) ∧ d'.isFolderAt p = d.isFolderAt p

/-- Whether two disks have the same in a folder, but for by-products. -/
def AlikeIn (folder : Place) (d d' : Disk) : Prop := ∀ p, folder <+: p → d.SameAt d' p

/-- Whether a disk has come of another one by work in a folder. -/
structure Within (folder : Place) (d d' : Disk) : Prop where
  here : d'.here = d.here
  tree : d.IsTree → d'.IsTree
  folders : ∀ p, d.isFolderAt p = true → d'.isFolderAt p = true
  catalogs : ∀ p, Place.EndsIn p ".po" → d'.contentAt? p = d.contentAt? p
  outside : ∀ p, ¬folder <+: p → d.SameAt d' p

/-- Whether a path leads to a folder of a tree. -/
structure Leads (d : Disk) (path : Text) (p : Place) : Prop where
  tree : d.IsTree
  tidy : Path.IsTidy path
  spells : d.Spells path p
  folder : d.isFolderAt p = true

variable {d d' d'' : Disk} {directory name : Text} {folder p : Place}

theorem SameAt.refl (d : Disk) (p : Place) : d.SameAt d p := ⟨fun _ => rfl, rfl⟩

theorem SameAt.symm (h : d.SameAt d' p) : d'.SameAt d p := ⟨fun hp => (h.1 hp).symm, h.2.symm⟩

theorem SameAt.trans (h : d.SameAt d' p) (h' : d'.SameAt d'' p) : d.SameAt d'' p :=
  ⟨fun hp => (h'.1 hp).trans (h.1 hp), h'.2.trans h.2⟩

/-- The same put on two disks makes no difference. -/
theorem SameAt.put (h : d.SameAt d' p) {q : Place} (hq : q ≠ []) (e : DiskEntry) : (d.put q e).SameAt (d'.put q e) p := by
  unfold SameAt isFolderAt at h ⊢
  rw [entry?_put d e p hq, entry?_put d' e p hq]
  by_cases hsame : q = p
  · simp [hsame]
  · simpa [hsame] using h

namespace Within

theorem refl (folder : Place) (d : Disk) : Within folder d d :=
  ⟨rfl, id, fun _ => id, fun _ _ => rfl, fun p _ => .refl d p⟩

theorem trans (h : Within folder d d') (h' : Within folder d' d'') : Within folder d d'' where
  here := h'.here.trans h.here
  tree := h'.tree ∘ h.tree
  folders p := h'.folders p ∘ h.folders p
  catalogs p hp := (h'.catalogs p hp).trans (h.catalogs p hp)
  outside p hp := (h.outside p hp).trans (h'.outside p hp)

/-- Work in a folder is work in the folders around it. -/
theorem mono {outer : Place} (hinner : outer <+: folder) (h : Within folder d d') : Within outer d d' :=
  ⟨h.here, h.tree, h.folders, h.catalogs, fun p hp => h.outside p fun hin => hp (hinner.trans hin)⟩

/-- Steps that each work in a folder together work in it. -/
theorem foldl {σ α : Type} (disk : σ → Disk) {step : σ → α → σ} {items : List α} (holds : Disk → Prop)
    (hholds : ∀ {d d'}, holds d → Within folder d d' → holds d')
    (hstep : ∀ x a, a ∈ items → holds (disk x) → Within folder (disk x) (disk (step x a))) (x : σ) (hx : holds (disk x)) :
    Within folder (disk x) (disk (items.foldl step x)) := by
  induction items generalizing x with
  | nil => exact refl folder (disk x)
  | cons a items ih =>
    have hfirst := hstep x a List.mem_cons_self hx
    exact hfirst.trans (ih (fun y b hb => hstep y b (List.mem_cons_of_mem _ hb)) (step x a) (hholds hx hfirst))

end Within

/-! ## Paths on a later disk -/

/-- A way to a folder stays open as long as folders stay. -/
theorem walk_of_folders (hfolders : ∀ q, d.isFolderAt q = true → d'.isFolderAt q = true) {base : Place} {pieces : List Text}
    (h : d.walk base pieces = .ok p) (hp : d.isFolderAt p = true) : d'.walk base pieces = .ok p := by
  induction pieces generalizing base with
  | nil => exact h
  | cons piece rest ih =>
    obtain ⟨hbase, next, hrest, hnext⟩ := walk_cons_eq_ok_iff.1 h
    have hthere : d'.entry? next ≠ none := entry?_ne_none_of_isFolderAt (hfolders next (isFolderAt_of_walk hrest hp))
    refine walk_cons_eq_ok_iff.2 ⟨hfolders base hbase, next, ih hrest, ?_⟩
    exact hnext.imp_right (Or.imp_right fun ⟨hidle, hup, hname, _⟩ => ⟨hidle, hup, hname, hthere⟩)

namespace Leads

/-- A path that leads to a folder still does after work in some folder. -/
theorem within (h : d.Leads directory p) (hwork : Within folder d d') : d'.Leads directory p := by
  refine ⟨hwork.tree h.tree, h.tidy, ?_, hwork.folders p h.folder⟩
  have hstart : d'.start directory = d.start directory := by rw [start, start, hwork.here]
  rw [Spells, hstart]
  exact walk_of_folders hwork.folders h.spells h.folder

/-- The path of a folder in a folder leads to it. -/
theorem join (h : d.Leads directory p) (hname : Path.IsName name) (hfolder : d.isFolderAt (p ++ [name]) = true) :
    d.Leads (Path.join directory name) (p ++ [name]) := by
  exact ⟨h.tree, Path.isTidy_join directory hname, h.spells.join hname h.folder (entry?_ne_none_of_isFolderAt hfolder), hfolder⟩

end Leads

/-- What a path leads to when it leads to a folder. -/
theorem find?_of_leads (h : d.Leads directory p) : d.find? directory = if (fault? directory).isSome then none else d.entry? p :=
  find?_of_spells h.tidy.ne_nil h.spells

/-- A path that leads to a folder finds it, unless it can lead nowhere. -/
theorem isFolder_of_leads (h : d.Leads directory p) : d.isFolder directory = (fault? directory).isNone := by
  have hfolder := h.folder
  rw [isFolder, find?_of_leads h]
  unfold isFolderAt at hfolder
  cases hfault : fault? directory with
  | some e => rfl
  | none =>
    rw [Option.isSome_none, if_neg Bool.false_ne_true]
    exact hfolder

/-- A path that finds a folder leads to one. -/
theorem exists_leads_of_isFolder (htree : d.IsTree) (htidy : Path.IsTidy directory) (h : d.isFolder directory = true) :
    ∃ p, d.Leads directory p ∧ d.place directory = .ok p := by
  unfold isFolder at h
  split at h
  · rename_i writable hfind
    unfold find? at hfind
    split at hfind
    · rename_i p hplace
      exact ⟨p, ⟨htree, htidy, (spells_of_place hplace).2, by rw [isFolderAt, hfind]⟩, hplace⟩
    · cases hfind
  · cases h

/-- The path of a folder in a folder that finds one leads to it. -/
theorem Leads.join_of_find? (h : d.Leads directory p) (hname : Path.IsName name) {writable : Bool}
    (hfind : d.find? (Path.join directory name) = some (.folder writable)) :
    d.Leads (Path.join directory name) (p ++ [name]) := by
  refine h.join hname ?_
  rw [find?_join hname h.spells h.folder] at hfind
  split at hfind
  · cases hfind
  · rw [isFolderAt, hfind]

/-! ## What work in a folder may do -/

/-- Something new may come into the folder, as long as it takes no folder's place and is no catalog's file. -/
theorem Within.put (hin : folder <+: p) (hp : d.isFolderAt p = true) (hname : Path.IsName name)
    (hno : d.isFolderAt (p ++ [name]) = false) {e : DiskEntry}
    (hcatalog : Text.endsWith name ".po" = false ∨ (d.entry? (p ++ [name]) = none ∧ e = .folder true)) :
    Within folder d (d.put (p ++ [name]) e) := by
  have hne : p ++ [name] ≠ [] := by simp
  refine ⟨rfl, fun h => h.put hp hname hno, fun q hq => ?_, fun q hq => ?_, fun q hq => ?_⟩
  · have hother : p ++ [name] ≠ q := by
      rintro rfl
      rw [hno] at hq
      cases hq
    rwa [isFolderAt, entry?_put d e q hne, if_neg hother]
  · rw [contentAt?, contentAt?, entry?_put d e q hne]
    by_cases hsame : p ++ [name] = q
    · subst hsame
      rcases hcatalog with hcatalog | ⟨hnone, rfl⟩
      · rw [Place.endsIn_append_iff, hcatalog] at hq
        cases hq
      · rw [if_pos rfl, hnone]
    · rw [if_neg hsame]
  · have hother : p ++ [name] ≠ q := by
      rintro rfl
      exact hq (hin.trans (List.prefix_append _ _))
    simp [SameAt, isFolderAt, entry?_put d e q hne, hother]

/-- Writing a file that is no catalog is work in the folder where it is. -/
theorem within_write {content : FileContent} (h : d.Leads directory p) (hin : folder <+: p) (hname : Path.IsName name)
    (hcatalog : Text.endsWith name ".po" = false) (hwrite : d.write (Path.join directory name) content = .ok d') :
    Within folder d d' := by
  rw [write_join hname h.spells h.folder] at hwrite
  split at hwrite
  · cases hwrite
  · rename_i hentry
    cases hwrite
    exact .put hin h.folder hname (by rw [isFolderAt, hentry]) (Or.inl hcatalog)
  · cases hwrite
  · rename_i hentry
    split at hwrite
    · cases hwrite
      exact .put hin h.folder hname (by rw [isFolderAt, hentry]) (Or.inl hcatalog)
    · cases hwrite

/-- Making folders along names is work in the folder where they start. -/
theorem within_makeFolders {names : List Text} (hnames : ∀ n ∈ names, Path.IsName n) (hin : folder <+: p)
    (hp : d.isFolderAt p = true) (hmade : d.makeFolders p names = .ok d') : Within folder d d' := by
  induction names generalizing d p with
  | nil =>
    cases hmade
    exact .refl folder _
  | cons name names ih =>
    obtain ⟨hname, hnames⟩ := List.forall_mem_cons.1 hnames
    have hin' : folder <+: p ++ [name] := hin.trans (List.prefix_append _ _)
    rw [makeFolders_cons d p hname] at hmade
    split at hmade
    · rename_i hentry
      exact ih hnames hin' (by rw [isFolderAt, hentry]) hmade
    · cases hmade
    · rename_i hentry
      split at hmade
      · have hnew : (d.put (p ++ [name]) (.folder true)).isFolderAt (p ++ [name]) = true := by
          rw [isFolderAt, entry?_put d _ _ (by simp), if_pos rfl]
        exact (Within.put hin hp hname (by rw [isFolderAt, hentry]) (Or.inr ⟨hentry, rfl⟩)).trans (ih hnames hin' hnew hmade)
      · cases hmade

/-- Making the folder of an entry of an entry is work in the folder where the way starts. -/
theorem within_createFolder {inner : Text} (h : d.Leads directory p) (hin : folder <+: p) (hname : Path.IsName name)
    (hinner : Path.IsName inner) (hmade : d.createFolder (Path.join (Path.join directory name) inner) = .ok d') :
    Within folder d d' := by
  rw [createFolder_join hname hinner h.spells h.folder] at hmade
  split at hmade
  · cases hmade
  · cases hmade
  · exact within_makeFolders (by simp [hname, hinner]) hin h.folder hmade

/-! ## Work in alike folders -/

/-- Whether two steps have ended alike: with the same error, or with disks that are alike in a folder. -/
def AlikeResult {ε : Type} (folder : Place) : Except ε Disk → Except ε Disk → Prop
  | .ok d, .ok d' => AlikeIn folder d d'
  | .error e, .error e' => e = e'
  | _, _ => False

variable (h : d.Leads directory p) (h' : d'.Leads directory p) (hin : folder <+: p) (halike : AlikeIn folder d d')

theorem AlikeIn.put (halike : AlikeIn folder d d') {q : Place} (hq : q ≠ []) (e : DiskEntry) :
    AlikeIn folder (d.put q e) (d'.put q e) := fun p hp => (halike p hp).put hq e

/-- An entry that is no by-product is the same on alike disks. -/
theorem AlikeIn.entry?_eq (halike : AlikeIn folder d d') (hin : folder <+: p) (hkept : Text.isByproduct name = false) :
    d'.entry? (p ++ [name]) = d.entry? (p ++ [name]) :=
  (halike _ (hin.trans (List.prefix_append _ _))).1 (by rw [Place.isByproduct_append_iff, hkept]; exact Bool.false_ne_true)

include h h' hin halike

/-- The same is found in alike folders. -/
theorem find?_congr (hname : Path.IsName name) (hkept : Text.isByproduct name = false) :
    d'.find? (Path.join directory name) = d.find? (Path.join directory name) := by
  rw [find?_join hname h.spells h.folder, find?_join hname h'.spells h'.folder, halike.entry?_eq hin hkept]

/-- The same is read in alike folders. -/
theorem read_congr (hname : Path.IsName name) (hkept : Text.isByproduct name = false) :
    d'.read (Path.join directory name) = d.read (Path.join directory name) := by
  rw [read_join hname h.spells h.folder, read_join hname h'.spells h'.folder, halike.entry?_eq hin hkept]

/-- The same is written in alike folders. -/
theorem alike_write (hname : Path.IsName name) (hkept : Text.isByproduct name = false) (content : FileContent) :
    AlikeResult folder (d.write (Path.join directory name) content) (d'.write (Path.join directory name) content) := by
  rw [write_join hname h.spells h.folder, write_join hname h'.spells h'.folder, halike.entry?_eq hin hkept]
  split
  · exact rfl
  · exact halike.put (by simp) _
  · exact rfl
  · split
    · exact halike.put (by simp) _
    · exact rfl

omit h h' in
/-- The same folders are made in alike folders. -/
theorem alike_makeFolders {names : List Text} (hnames : ∀ n ∈ names, Path.IsName n)
    (hkept : ∀ n ∈ names, Text.isByproduct n = false) :
    AlikeResult folder (d.makeFolders p names) (d'.makeFolders p names) := by
  induction names generalizing d d' p with
  | nil => exact halike
  | cons name names ih =>
    obtain ⟨hname, hnames⟩ := List.forall_mem_cons.1 hnames
    obtain ⟨hkept, hkept'⟩ := List.forall_mem_cons.1 hkept
    have hin' : folder <+: p ++ [name] := hin.trans (List.prefix_append _ _)
    rw [makeFolders_cons d p hname, makeFolders_cons d' p hname, halike.entry?_eq hin hkept]
    split
    · exact ih hin' halike hnames hkept'
    · exact rfl
    · split
      · exact ih hin' (halike.put (q := p ++ [name]) (by simp) _) hnames hkept'
      · exact rfl

omit h h' in
/-- Names lead to the same in alike folders. -/
theorem walk_congr {names : List Text} (hnames : ∀ n ∈ names, Path.IsName n)
    (hkept : ∀ n ∈ names, Text.isByproduct n = false) : d'.walk p names = d.walk p names := by
  induction names generalizing p with
  | nil => rfl
  | cons name names ih =>
    obtain ⟨hname, hnames⟩ := List.forall_mem_cons.1 hnames
    obtain ⟨hkept, hkept'⟩ := List.forall_mem_cons.1 hkept
    rw [walk_cons d p hname, walk_cons d' p hname, (halike p hin).2, halike.entry?_eq hin hkept,
      ih (hin.trans (List.prefix_append p [name])) hnames hkept']

/-- The same folder of an entry of an entry is made in alike folders. -/
theorem alike_createFolder {inner : Text} (hname : Path.IsName name) (hkept : Text.isByproduct name = false)
    (hinner : Path.IsName inner) (hkept' : Text.isByproduct inner = false) :
    AlikeResult folder (d.createFolder (Path.join (Path.join directory name) inner))
      (d'.createFolder (Path.join (Path.join directory name) inner)) := by
  have hnames : ∀ n ∈ [name, inner], Path.IsName n := by simp [hname, hinner]
  have hboth : ∀ n ∈ [name, inner], Text.isByproduct n = false :=
    List.forall_mem_cons.2 ⟨hkept, List.forall_mem_singleton.2 hkept'⟩
  rw [createFolder_join hname hinner h.spells h.folder, createFolder_join hname hinner h'.spells h'.folder,
    walk_congr hin halike hnames hboth]
  split
  · exact rfl
  · exact rfl
  · exact alike_makeFolders hin halike hnames hboth

omit h h' hin halike

/-- Steps that each do the same in alike folders do the same together. -/
theorem AlikeIn.foldl {σ α : Type} (disk : σ → Disk) {step step' : σ → α → σ} {items : List α} (holds : Disk → Prop)
    (hholds : ∀ x a, a ∈ items → holds (disk x) → holds (disk (step x a)))
    (hholds' : ∀ x a, a ∈ items → holds (disk x) → holds (disk (step' x a)))
    (hstep : ∀ x y a, a ∈ items → holds (disk x) → holds (disk y) → AlikeIn folder (disk x) (disk y) →
      AlikeIn folder (disk (step x a)) (disk (step' y a)))
    {x y : σ} (hx : holds (disk x)) (hy : holds (disk y)) (h : AlikeIn folder (disk x) (disk y)) :
    AlikeIn folder (disk (items.foldl step x)) (disk (items.foldl step' y)) := by
  induction items generalizing x y with
  | nil => exact h
  | cons a items ih =>
    refine ih (fun x b hb => hholds x b (List.mem_cons_of_mem _ hb)) (fun x b hb => hholds' x b (List.mem_cons_of_mem _ hb))
      (fun x y b hb => hstep x y b (List.mem_cons_of_mem _ hb)) (hholds x a List.mem_cons_self hx)
      (hholds' y a List.mem_cons_self hy) (hstep x y a List.mem_cons_self hx hy h)

end Disk

end LocalePages
