import LocalePages.Proofs.FolderWork

/-!
# Disks that differ in some files

Two disks agree off some places when they have the same folders, and the same everywhere else (`Disk.AgreesOff`). A path opens the
same folder on both, so that a file is found, read and written under its name in the folder in the same way on both, unless
the file is one that they differ in (`Disk.write_congr`). A path that opens no folder leads to no file in one: nothing is found there and
nothing is written (`Disk.write_of_not_opens`).
-/

namespace LocalePages

namespace Disk

/-- Whether a path leads to a folder, whatever it looks like. -/
structure Opens (d : Disk) (path : Text) (p : Place) : Prop where
  spells : d.Spells path p
  folder : d.isFolderAt p = true

/-- Whether two disks have the same folders, and the same everywhere but at some places. -/
structure AgreesOff (changed : Place → Prop) (d d' : Disk) : Prop where
  here : d'.here = d.here
  folders : ∀ q, d'.isFolderAt q = d.isFolderAt q
  entries : ∀ q, ¬changed q → d'.entry? q = d.entry? q

variable {d d' d'' : Disk} {directory name : Text} {p q : Place} {changed : Place → Prop}

theorem Leads.opens (h : d.Leads directory p) : d.Opens directory p := ⟨h.spells, h.folder⟩

namespace AgreesOff

theorem refl (changed : Place → Prop) (d : Disk) : AgreesOff changed d d := ⟨rfl, fun _ => rfl, fun _ _ => rfl⟩

theorem symm (h : AgreesOff changed d d') : AgreesOff changed d' d :=
  ⟨h.here.symm, fun q => (h.folders q).symm, fun q hq => (h.entries q hq).symm⟩

theorem trans (h : AgreesOff changed d d') (h' : AgreesOff changed d' d'') : AgreesOff changed d d'' :=
  ⟨h'.here.trans h.here, fun q => (h'.folders q).trans (h.folders q), fun q hq => (h'.entries q hq).trans (h.entries q hq)⟩

/-- Disks that agree off some places agree off more. -/
theorem mono {more : Place → Prop} (hmore : ∀ q, changed q → more q) (h : AgreesOff changed d d') : AgreesOff more d d' :=
  ⟨h.here, h.folders, fun q hq => h.entries q fun hc => hq (hmore q hc)⟩

/-- A path opens the same folder on both disks. -/
theorem opens (h : AgreesOff changed d d') (hopens : d.Opens directory p) : d'.Opens directory p := by
  have hstart : d'.start directory = d.start directory := by rw [start, start, h.here]
  refine ⟨?_, (h.folders p).trans hopens.folder⟩
  rw [Spells, hstart]
  exact walk_of_folders (fun q hq => (h.folders q).trans hq) hopens.spells hopens.folder

/-- A file at one of the places, where no folder is, makes no other difference. -/
theorem put (hq : changed q) (hno : d.isFolderAt q = false) (content : FileContent) (executable : Bool) :
    AgreesOff changed d (d.put q (.file content executable)) := by
  have hne : q ≠ [] := by
    rintro rfl
    cases hno
  refine ⟨rfl, fun r => ?_, fun r hr => ?_⟩
  · unfold isFolderAt at hno ⊢
    rw [entry?_put d _ r hne]
    by_cases hsame : q = r
    · rw [if_pos hsame, ← hsame, hno]
    · rw [if_neg hsame]
  · rw [entry?_put d _ r hne, if_neg]
    rintro rfl
    exact hr hq

/-- The same put on both disks makes no new difference. -/
theorem put_both (h : AgreesOff changed d d') (hq : q ≠ []) (e : DiskEntry) : AgreesOff changed (d.put q e) (d'.put q e) := by
  refine ⟨h.here, fun r => ?_, fun r hr => ?_⟩
  · have hr := h.folders r
    unfold isFolderAt at hr ⊢
    rw [entry?_put d e r hq, entry?_put d' e r hq]
    by_cases hsame : q = r
    · rw [if_pos hsame, if_pos hsame]
    · rw [if_neg hsame, if_neg hsame]
      exact hr
  · rw [entry?_put d e r hq, entry?_put d' e r hq, h.entries r hr]

/-- Steps that each make a difference at the places only make no other one together. -/
theorem foldl_self {σ α : Type} (disk : σ → Disk) {step : σ → α → σ} {items : List α} (holds : Disk → Prop)
    (hholds : ∀ x a, a ∈ items → holds (disk x) → holds (disk (step x a)))
    (hstep : ∀ x a, a ∈ items → holds (disk x) → AgreesOff changed (disk x) (disk (step x a))) (x : σ) (hx : holds (disk x)) :
    AgreesOff changed (disk x) (disk (items.foldl step x)) := by
  induction items generalizing x with
  | nil => exact refl changed (disk x)
  | cons a items ih =>
    exact (hstep x a List.mem_cons_self hx).trans (ih (fun y b hb => hholds y b (List.mem_cons_of_mem _ hb))
      (fun y b hb => hstep y b (List.mem_cons_of_mem _ hb)) (step x a) (hholds x a List.mem_cons_self hx))

/-- Steps that each make no new difference make none together. -/
theorem foldl {σ α : Type} (disk : σ → Disk) {step : σ → α → σ} {items : List α} (holds : Disk → Prop)
    (hholds : ∀ x a, a ∈ items → holds (disk x) → holds (disk (step x a)))
    (hstep : ∀ x y a, a ∈ items → holds (disk x) → AgreesOff changed (disk x) (disk y) →
      AgreesOff changed (disk (step x a)) (disk (step y a)))
    {x y : σ} (hx : holds (disk x)) (h : AgreesOff changed (disk x) (disk y)) :
    AgreesOff changed (disk (items.foldl step x)) (disk (items.foldl step y)) := by
  induction items generalizing x y with
  | nil => exact h
  | cons a items ih =>
    exact ih (fun x b hb => hholds x b (List.mem_cons_of_mem _ hb)) (fun x y b hb => hstep x y b (List.mem_cons_of_mem _ hb))
      (hholds x a List.mem_cons_self hx) (hstep x y a List.mem_cons_self hx h)

end AgreesOff

/-- Nothing is read where nothing is found. -/
theorem toOption_read_of_has {path : Text} (h : d.has path = false) : (d.read path).toOption = none := by
  unfold has find? at h
  unfold read
  cases hplace : d.place path with
  | error e => rfl
  | ok p =>
    rw [hplace] at h
    dsimp only at h ⊢
    rw [Option.isSome_eq_false_iff.1 h |> Option.isNone_iff_eq_none.1]
    rfl

/-! ## Files under a name -/

/-- A path of an entry that leads somewhere leads to the entry. -/
theorem eq_of_place_join (h : d.Opens directory p) (hname : Path.IsName name) (hplace : d.place (Path.join directory name) = .ok q) :
    q = p ++ [name] := by
  rw [place_join hname h.spells h.folder] at hplace
  split at hplace
  · cases hplace
  · split at hplace
    · cases hplace
    · exact (Except.ok.inj hplace).symm

/-- A write under a name makes no difference elsewhere, and none at all where the path cannot lead anywhere. -/
theorem agreesOff_write {content : FileContent} (h : d.Opens directory p) (hname : Path.IsName name)
    (hchanged : fault? (Path.join directory name) = none → changed (p ++ [name]))
    (hwrite : d.write (Path.join directory name) content = .ok d') : AgreesOff changed d d' := by
  rw [write_join hname h.spells h.folder] at hwrite
  split at hwrite
  · cases hwrite
  · rename_i hfault hentry
    cases hwrite
    exact .put (hchanged hfault) (by rw [isFolderAt, hentry]) _ _
  · cases hwrite
  · rename_i hfault hentry
    split at hwrite
    · cases hwrite
      exact .put (hchanged hfault) (by rw [isFolderAt, hentry]) _ _
    · cases hwrite

section

variable (h : d.Opens directory p) (h' : d'.Opens directory p) (hname : Path.IsName name)
  (hentry : d'.entry? (p ++ [name]) = d.entry? (p ++ [name]))

include h h' hname hentry

/-- What is found under a name is told by what is there. -/
theorem has_congr_of_entry : d'.has (Path.join directory name) = d.has (Path.join directory name) := by
  rw [has, has, find?_join hname h.spells h.folder, find?_join hname h'.spells h'.folder, hentry]

/-- What is read under a name is told by what is there. -/
theorem read_congr_of_entry : d'.read (Path.join directory name) = d.read (Path.join directory name) := by
  rw [read_join hname h.spells h.folder, read_join hname h'.spells h'.folder, hentry]

/-- Where a name leads is told by whether anything is there. -/
theorem place_congr_of_entry : d'.place (Path.join directory name) = d.place (Path.join directory name) := by
  rw [place_join hname h.spells h.folder, place_join hname h'.spells h'.folder, hentry]

/-- What is written under a name comes to the same place, or is refused for the same reason, where the same is there. -/
theorem write_congr (content : FileContent) :
    (∃ e, d.write (Path.join directory name) content = .error e ∧ d'.write (Path.join directory name) content = .error e) ∨
      ∃ executable, d.write (Path.join directory name) content = .ok (d.put (p ++ [name]) (.file content executable)) ∧
        d'.write (Path.join directory name) content = .ok (d'.put (p ++ [name]) (.file content executable)) := by
  rw [write_join hname h.spells h.folder, write_join hname h'.spells h'.folder, hentry]
  split
  · exact Or.inl ⟨_, rfl, rfl⟩
  · exact Or.inr ⟨_, rfl, rfl⟩
  · exact Or.inl ⟨_, rfl, rfl⟩
  · split
    · exact Or.inr ⟨_, rfl, rfl⟩
    · exact Or.inl ⟨_, rfl, rfl⟩

end

/-- A write under a name where no folder is succeeds when the path can lead somewhere, and something is there or the name is not too
long. -/
theorem exists_write_iff (h : d.Opens directory p) (hname : Path.IsName name)
    (hno : fault? (Path.join directory name) = none → d.isFolderAt (p ++ [name]) = false) (content : FileContent) :
    (∃ d', d.write (Path.join directory name) content = .ok d') ↔
      fault? (Path.join directory name) = none ∧ (missing name = .notFound ∨ (d.entry? (p ++ [name])).isNone = false) := by
  rw [write_join hname h.spells h.folder]
  cases hfault : fault? (Path.join directory name) with
  | some e => simp
  | none =>
    have hno := hno hfault
    unfold isFolderAt at hno
    cases hentry : d.entry? (p ++ [name]) with
    | none => by_cases hmissing : missing name = .notFound <;> simp [hmissing]
    | some e =>
      cases e with
      | file content executable => simp
      | folder writable => simp [hentry] at hno

/-- A write under a name that is too long changes a file that is there. -/
theorem isNone_entry?_of_write {content : FileContent} (h : d.Opens directory p) (hname : Path.IsName name)
    (hmissing : missing name ≠ .notFound) (hwrite : d.write (Path.join directory name) content = .ok d') (q : Place) :
    (d'.entry? q).isNone = (d.entry? q).isNone := by
  rw [write_join hname h.spells h.folder] at hwrite
  split at hwrite
  · cases hwrite
  · rename_i hentry
    cases hwrite
    rw [entry?_put d _ q (by simp)]
    split
    · rename_i hsame
      rw [← hsame, hentry]
      rfl
    · rfl
  · cases hwrite
  · rw [if_neg hmissing] at hwrite
    cases hwrite

/-! ## Folders that are not there -/

/-- Pieces before those of an entry that lead to a folder say that the path of the folder opens it. -/
theorem opens_of_walk_lead (h : d.walk (d.start directory).1 (Path.leadPieces directory) = .ok p)
    (hfolder : d.isFolderAt p = true) : d.Opens directory p := by
  refine ⟨?_, hfolder⟩
  have hidle : d.walk p [[]] = .ok p := by
    rw [walk, hfolder]
    rfl
  rw [Spells, start_snd]
  unfold Path.leadPieces at h
  rcases Path.lead_cases directory with ⟨rfl, hlead⟩ | ⟨start, hlead, hdirectory⟩
  · rw [hlead] at h
    obtain rfl := Except.ok.inj h
    exact hidle
  · have hpieces : Path.segments (start ++ ['/']) = Path.segments start ++ [[]] := Path.segments_append_slash start []
    rw [hlead, hpieces, List.dropLast_concat] at h
    rcases hdirectory with rfl | ⟨rfl, -⟩
    · rw [hpieces, walk_append, h]
      exact hidle
    · exact h

/-- A path that opens no folder leads to no file in one, and none is written there. -/
theorem write_of_not_opens (h : ∀ p, ¬d.Opens directory p) (hname : Path.IsName name) :
    d.has (Path.join directory name) = false ∧ ∀ content, ∃ e, d.write (Path.join directory name) content = .error e := by
  obtain ⟨e, hwalk⟩ : ∃ e, d.walk (d.start directory).1 (Path.leadPieces directory ++ [name]) = .error e ∧
      (e = .notFound → ∃ e', d.walk (d.start directory).1 (Path.leadPieces directory) = .error e') := by
    rw [walk_append]
    cases hlead : d.walk (d.start directory).1 (Path.leadPieces directory) with
    | error e => exact ⟨e, rfl, fun _ => ⟨e, rfl⟩⟩
    | ok p =>
      have hfolder : d.isFolderAt p = false := by
        rw [← Bool.not_eq_true]
        exact fun hfolder => h p (opens_of_walk_lead hlead hfolder)
      refine ⟨.notFolder, ?_, nofun⟩
      show d.walk p [name] = _
      rw [walk, hfolder]
      rfl
  have hplace : ∃ e, d.place (Path.join directory name) = .error e ∧
      (e = .notFound → ∃ e', d.walk (d.start directory).1 (Path.leadPieces directory) = .error e') := by
    rw [place_eq d (Path.join_ne_nil directory hname), start_join d directory hname]
    cases hfault : fault? (Path.join directory name) with
    | none => exact ⟨e, hwalk⟩
    | some f =>
      refine ⟨f, rfl, ?_⟩
      rintro rfl
      unfold fault? at hfault
      split at hfault
      · cases hfault
      · split at hfault <;> cases hfault
  obtain ⟨f, hplace, hmissing⟩ := hplace
  refine ⟨by rw [has, find?, hplace]; rfl, fun content => ?_⟩
  rw [write, hplace]
  cases f
  case notFound =>
    obtain ⟨e', hlead⟩ := hmissing rfl
    have hnew : d.newPlace (Path.join directory name) = .error e' := by simp [newPlace, start_join d directory hname, hlead]
    exact ⟨e', by simp only [hnew]⟩
  all_goals exact ⟨_, rfl⟩

end Disk

end LocalePages
