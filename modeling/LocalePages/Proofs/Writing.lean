import LocalePages.Disk.Changes
import Mathlib.Data.List.Basic

/-!
# What writing does to a disk

A write puts a file at one place, and a path leads to that place afterwards (`Disk.write_cases`, `Disk.place_write`): the place
that the path leads to already, or one where nothing is. So what was written is read back (`Disk.read_write`), a second write
changes nothing exactly when it writes the same (`Disk.write_eq_self_iff`), and no other file is touched. Making folders touches no
file at all (`Disk.contentAt?_createFolder`). A path whose last piece is a name leads to a place of that name
(`Disk.getLast?_of_place`).
-/

namespace LocalePages

namespace Disk

variable {d d' : Disk} {path : Text} {p q : Place}

/-! ## Entries -/

/-- What is at each place when an entry was put at one other than the root. -/
theorem entry?_put (d : Disk) (e : DiskEntry) (q : Place) (hp : p ≠ []) :
    Disk.entry? (d.put p e) q = if p = q then some e else d.entry? q := by
  unfold entry? put
  by_cases hq : q = []
  · simp [hq, hp]
  · simp [hq, Members.get?_put]

/-- Nothing but a folder is at the root. -/
theorem ne_nil_of_entry? {content : FileContent} {executable : Bool} (h : d.entry? p = some (.file content executable)) :
    p ≠ [] := by
  rintro rfl
  cases h

/-- What the files hold when one was put somewhere. -/
theorem contentAt?_put_file (d : Disk) (content : FileContent) (executable : Bool) (q : Place) (hp : p ≠ []) :
    (d.put p (.file content executable)).contentAt? q = if p = q then some content else d.contentAt? q := by
  simp only [contentAt?, entry?_put d _ q hp]
  by_cases h : p = q <;> simp [h]

/-- A folder that is put where nothing is touches no file. -/
theorem contentAt?_put_folder {writable : Bool} (q : Place) (hp : p ≠ []) (hnone : d.entry? p = none) :
    (d.put p (.folder writable)).contentAt? q = d.contentAt? q := by
  simp only [contentAt?, entry?_put d _ q hp]
  by_cases h : p = q
  · rw [← h, if_pos rfl, hnone]
  · rw [if_neg h]

/-- Something is where a folder is. -/
theorem entry?_ne_none_of_isFolderAt (h : d.isFolderAt p = true) : d.entry? p ≠ none := by
  intro hnone
  rw [isFolderAt, hnone] at h
  cases h

/-- A file is at a place exactly when the place has a content. -/
theorem contentAt?_eq_some_iff {content : FileContent} :
    d.contentAt? p = some content ↔ ∃ executable, d.entry? p = some (.file content executable) := by
  unfold contentAt?
  split
  · rename_i c x h
    simp [h]
  · rename_i h
    constructor
    · intro hnone
      cases hnone
    · rintro ⟨executable, he⟩
      exact absurd he (h content executable)

/-- Where there is nothing, there is no file. -/
theorem contentAt?_eq_none (h : d.entry? p = none) : d.contentAt? p = none := by rw [contentAt?, h]

/-- Something is where a file is. -/
theorem entry?_ne_none_of_contentAt? (h : (d.contentAt? p).isSome = true) : d.entry? p ≠ none := by
  intro hnone
  rw [contentAt?_eq_none hnone] at h
  cases h

/-- Where a folder is, there is no file. -/
theorem contentAt?_of_isFolderAt (h : d.isFolderAt p = true) : d.contentAt? p = none := by
  unfold isFolderAt at h
  split at h
  · rename_i hentry
    rw [contentAt?, hentry]
  · cases h

/-! ## Ways along a path -/

/-- Following pieces of a path is following the first ones and then the others. -/
theorem walk_append (d : Disk) (base : Place) (before after : List Text) :
    d.walk base (before ++ after) = d.walk base before >>= fun p => d.walk p after := by
  induction before generalizing base with
  | nil => rfl
  | cons piece before ih =>
    simp only [List.cons_append, walk]
    split
    · rfl
    · split
      · exact ih base
      · split
        · exact ih base.dropLast
        · split
          · rfl
          · exact ih (base ++ [piece])

/-- Pieces that lead somewhere lead there from where the first of them lead. -/
theorem exists_of_walk_append {base : Place} {before after : List Text} (h : d.walk base (before ++ after) = .ok q) :
    ∃ next, d.walk base before = .ok next ∧ d.walk next after = .ok q := by
  rw [walk_append] at h
  cases hbefore : d.walk base before with
  | error e =>
    rw [hbefore] at h
    cases h
  | ok next =>
    rw [hbefore] at h
    exact ⟨next, rfl, h⟩

/-- Where the first of some pieces leads: from a folder to the folder itself, to the one around it, or to what is under its name. -/
theorem walk_cons_eq_ok_iff {base : Place} {piece : Text} {rest : List Text} :
    d.walk base (piece :: rest) = .ok q ↔ d.isFolderAt base = true ∧ ∃ next, d.walk next rest = .ok q ∧
      ((Path.isIdle piece = true ∧ next = base) ∨ (piece = ".." ∧ next = base.dropLast) ∨
        (Path.isIdle piece = false ∧ piece ≠ ".." ∧ next = base ++ [piece] ∧ d.entry? next ≠ none)) := by
  rw [walk]
  constructor
  · intro h
    split at h
    · cases h
    · rename_i hfolder
      refine ⟨by simpa using hfolder, ?_⟩
      split at h
      · rename_i hidle
        exact ⟨base, h, Or.inl ⟨hidle, rfl⟩⟩
      · rename_i hidle
        split at h
        · rename_i hup
          exact ⟨_, h, Or.inr (Or.inl ⟨hup, rfl⟩)⟩
        · rename_i hup
          split at h
          · cases h
          · rename_i hthere
            exact ⟨_, h, Or.inr (Or.inr ⟨Bool.eq_false_iff.2 hidle, hup, rfl, by simpa using hthere⟩)⟩
  · rintro ⟨hfolder, next, hrest, hnext⟩
    rw [if_neg (by simp [hfolder])]
    rcases hnext with ⟨hidle, rfl⟩ | ⟨rfl, rfl⟩ | ⟨hidle, hup, rfl, hthere⟩
    · rwa [if_pos hidle]
    · rwa [if_neg (by decide), if_pos rfl]
    · rwa [if_neg (Bool.eq_false_iff.1 hidle), if_neg hup, if_neg (by simpa using hthere)]

/-- A name is followed from a folder to the place in it, if anything is there. -/
theorem walk_name (d : Disk) {folder : Place} {name : Text} (hfolder : d.isFolderAt folder = true)
    (hname : Path.isIdle name = false) (hup : name ≠ "..") :
    d.walk folder [name] = if (d.entry? (folder ++ [name])).isNone then .error (missing name) else .ok (folder ++ [name]) := by
  simp only [walk, hfolder, hname, hup, Bool.not_true, Bool.false_eq_true, if_false]

/-- A way that ends with a name leads to a place of that name. -/
theorem getLast?_of_walk {base : Place} {pieces : List Text} {name : Text} (hpieces : pieces.getLast? = some name)
    (hname : Path.isIdle name = false) (hup : name ≠ "..") (h : d.walk base pieces = .ok p) : p.getLast? = some name := by
  rw [← List.dropLast_append_getLast? name hpieces] at h
  obtain ⟨folder, -, hlast⟩ := exists_of_walk_append h
  obtain ⟨-, next, hend, ⟨hidle, -⟩ | ⟨hdots, -⟩ | ⟨-, -, rfl, -⟩⟩ := walk_cons_eq_ok_iff.1 hlast
  · rw [hname] at hidle
    cases hidle
  · exact absurd hdots hup
  · cases hend
    exact List.getLast?_concat

/-- A way stays open when what is there stays there and folders stay folders. -/
theorem walk_mono (hfolder : ∀ q, d.isFolderAt q = true → d'.isFolderAt q = true)
    (hthere : ∀ q, d.entry? q ≠ none → d'.entry? q ≠ none) {base : Place} {pieces : List Text} (h : d.walk base pieces = .ok p) :
    d'.walk base pieces = .ok p := by
  induction pieces generalizing base with
  | nil => exact h
  | cons piece rest ih =>
    obtain ⟨hbase, next, hrest, hnext⟩ := walk_cons_eq_ok_iff.1 h
    refine walk_cons_eq_ok_iff.2 ⟨hfolder base hbase, next, ih hrest, ?_⟩
    exact hnext.imp_right (Or.imp_right fun ⟨hidle, hup, hname, hsome⟩ => ⟨hidle, hup, hname, hthere next hsome⟩)

/-- A path leads where the pieces of it lead, when it is no longer than a path can be and names something. -/
theorem place_eq_walk (d : Disk) (hlength : ¬(pathLimit < Utf8.size path)) (hnul : path.contains '\x00' = false)
    (hempty : path ≠ []) : d.place path = d.walk (d.start path).1 (d.start path).2 := by
  simp only [place, resolve, hlength, hnul, hempty, decide_false, Bool.false_and, Bool.false_eq_true, if_false,
    List.isEmpty_iff]

/-- A path that leads somewhere, or nowhere because something on its way is missing, is no longer than a path can be. -/
theorem limits_of_place (h : (∃ p, d.place path = .ok p) ∨ d.place path = .error .notFound) :
    ¬(pathLimit < Utf8.size path) ∧ path.contains '\x00' = false := by
  unfold place resolve at h
  cases hnul : path.contains '\x00' with
  | true => simp only [hnul, Bool.not_true, Bool.and_false, Bool.false_eq_true, if_false, if_true] at h; simp at h
  | false =>
    refine ⟨fun hlength => ?_, rfl⟩
    simp only [hnul, hlength, decide_true, Bool.not_false, Bool.and_true, if_true] at h
    simp at h

/-- A path that leads somewhere is not empty. -/
theorem ne_nil_of_place (h : d.place path = .ok p) : path ≠ [] := by
  rintro rfl
  obtain ⟨hlength, -⟩ := limits_of_place (Or.inl ⟨p, h⟩)
  simp [place, resolve, hlength] at h

/-- A path whose last piece is a name leads to a place of that name. -/
theorem getLast?_of_place {name : Text} (hpath : (Path.segments path).getLast? = some name) (hname : Path.isIdle name = false)
    (hup : name ≠ "..") (h : d.place path = .ok p) : p.getLast? = some name := by
  obtain ⟨hlength, hnul⟩ := limits_of_place (Or.inl ⟨p, h⟩)
  rw [place_eq_walk d hlength hnul (ne_nil_of_place h)] at h
  refine getLast?_of_walk ?_ hname hup h
  unfold start
  split <;> exact hpath

/-! ## New files -/

/-- The place of a new file is in a folder that its path leads to, and has a name. -/
theorem newPlace_cases (h : d.newPlace path = .ok p) :
    ∃ folder name, p = folder ++ [name] ∧ (d.start path).2.getLast? = some name ∧
      d.walk (d.start path).1 (d.start path).2.dropLast = .ok folder ∧ d.isFolderAt folder = true ∧
      Path.isIdle name = false ∧ name ≠ ".." := by
  unfold newPlace at h
  dsimp only at h
  split at h
  · cases h
  · rename_i name hlast
    split at h
    · cases h
    · rename_i folder hwalk
      split at h
      · cases h
      · rename_i hfolder
        split at h
        · cases h
        · rename_i hproper
          cases h
          simp only [Bool.or_eq_true, decide_eq_true_eq, not_or, Bool.not_eq_true] at hproper
          exact ⟨folder, name, rfl, hlast, hwalk, by simpa using hfolder, hproper⟩

/-- A path with a place for a new file says something. -/
theorem ne_nil_of_newPlace (h : d.newPlace path = .ok p) : path ≠ [] := by
  rintro rfl
  obtain ⟨folder, name, -, hlast, -, -, hidle, -⟩ := newPlace_cases h
  have hname : name = [] := by
    have hpieces : (d.start []).2 = [[]] := rfl
    rw [hpieces] at hlast
    exact (Option.some.inj hlast).symm
  rw [hname] at hidle
  cases hidle

/-- Nothing is at the place of a new file when its path leads nowhere. -/
theorem entry?_of_newPlace (hmissing : d.place path = .error .notFound) (h : d.newPlace path = .ok p) : d.entry? p = none := by
  obtain ⟨hlength, hnul⟩ := limits_of_place (Or.inr hmissing)
  rw [place_eq_walk d hlength hnul (ne_nil_of_newPlace h)] at hmissing
  obtain ⟨folder, name, rfl, hlast, hwalk, hfolder, hidle, hup⟩ := newPlace_cases h
  rw [← List.dropLast_append_getLast? name hlast, walk_append, hwalk] at hmissing
  have hname : d.walk folder [name] = .error .notFound := hmissing
  rw [walk_name d hfolder hidle hup] at hname
  split at hname
  · rename_i hnone
    exact Option.isNone_iff_eq_none.1 hnone
  · cases hname

/-! ## Writes -/

/-- A write puts a file at the place of the one that its path leads to, or at a place where nothing is. -/
theorem write_cases {content : FileContent} (h : d.write path content = .ok d') :
    ∃ p executable, p ≠ [] ∧ d' = d.put p (.file content executable) ∧
      ((d.place path = .ok p ∧ ∃ old, d.entry? p = some (.file old executable)) ∨
        (d.place path = .error .notFound ∧ d.newPlace path = .ok p ∧ d.entry? p = none)) := by
  unfold write at h
  split at h
  · rename_i p hplace
    split at h
    · rename_i old executable hentry
      cases h
      exact ⟨p, executable, ne_nil_of_entry? hentry, rfl, Or.inl ⟨hplace, old, hentry⟩⟩
    · cases h
    · cases h
  · rename_i hmissing
    split at h
    · rename_i p hnew
      cases h
      obtain ⟨folder, name, rfl, -⟩ := newPlace_cases hnew
      exact ⟨folder ++ [name], false, by simp, rfl, Or.inr ⟨hmissing, hnew, entry?_of_newPlace hmissing hnew⟩⟩
    · cases h
  · cases h

/-- A way stays open when a file was put where no folder was. -/
theorem walk_put_file {content : FileContent} {executable : Bool} (hp : p ≠ []) (hno : d.isFolderAt p = false) {base : Place}
    {pieces : List Text} (h : d.walk base pieces = .ok q) : (d.put p (.file content executable)).walk base pieces = .ok q := by
  refine walk_mono (fun r hr => ?_) (fun r hr => ?_) h
  · have hne : p ≠ r := by
      rintro rfl
      rw [hno] at hr
      cases hr
    rw [isFolderAt, entry?_put d _ r hp, if_neg hne]
    exact hr
  · rw [entry?_put d _ r hp]
    split
    · exact Option.some_ne_none _
    · exact hr

/-- After a write the path leads to the file that was written. -/
theorem place_write {content : FileContent} (h : d.write path content = .ok d') :
    ∃ p executable, p ≠ [] ∧ d' = d.put p (.file content executable) ∧ d'.place path = .ok p := by
  obtain ⟨p, executable, hp, rfl, ⟨hplace, old, hentry⟩ | ⟨hmissing, hnew, hnone⟩⟩ := write_cases h
  · have hno : d.isFolderAt p = false := by rw [isFolderAt, hentry]
    obtain ⟨hlength, hnul⟩ := limits_of_place (Or.inl ⟨p, hplace⟩)
    refine ⟨p, executable, hp, rfl, ?_⟩
    have hempty := ne_nil_of_place hplace
    rw [place_eq_walk d hlength hnul hempty] at hplace
    rw [place_eq_walk _ hlength hnul hempty]
    exact walk_put_file hp hno hplace
  · have hno : d.isFolderAt p = false := by rw [isFolderAt, hnone]
    obtain ⟨hlength, hnul⟩ := limits_of_place (Or.inr hmissing)
    refine ⟨p, executable, hp, rfl, ?_⟩
    rw [place_eq_walk _ hlength hnul (ne_nil_of_newPlace hnew)]
    obtain ⟨folder, name, rfl, hlast, hwalk, hfolder, hidle, hup⟩ := newPlace_cases hnew
    have hstart : (d.put (folder ++ [name]) (.file content executable)).start path = d.start path := rfl
    have hnewfolder : (d.put (folder ++ [name]) (.file content executable)).isFolderAt folder = true := by
      rw [isFolderAt, entry?_put d _ folder hp, if_neg (by simp)]
      exact hfolder
    rw [hstart, ← List.dropLast_append_getLast? name hlast, walk_append, walk_put_file hp hno hwalk]
    refine (walk_name _ hnewfolder hidle hup).trans ?_
    rw [entry?_put d _ _ hp, if_pos rfl]
    rfl

/-- What was written is read back. -/
theorem read_write {content : FileContent} (h : d.write path content = .ok d') : d'.read path = .ok content := by
  obtain ⟨p, executable, hp, rfl, hplace⟩ := place_write h
  simp only [read, hplace, entry?_put d _ p hp, if_pos]

/-- Writing once more to the same path changes nothing exactly when it writes the same. -/
theorem write_eq_self_iff {content content' : FileContent} (h : d.write path content = .ok d') :
    d'.write path content' = .ok d' ↔ content' = content := by
  constructor
  · intro hagain
    have hread := read_write hagain
    rw [read_write h] at hread
    exact (Except.ok.inj hread).symm
  · rintro rfl
    obtain ⟨p, executable, hp, rfl, hplace⟩ := place_write h
    have hentry : Members.get? p (d.put p (.file content' executable)).entries = some (.file content' executable) := by
      rw [put, Members.get?_put, if_pos rfl]
    have hagain : (d.put p (.file content' executable)).put p (.file content' executable) = d.put p (.file content' executable) :=
      congrArg (Disk.mk · d.here) (Members.put_of_get? hentry)
    simp only [write, hplace, entry?_put d _ p hp, if_pos, hagain]

/-- A path leads somewhere after it was written to. -/
theorem has_write {content : FileContent} (h : d.write path content = .ok d') : d'.has path = true := by
  obtain ⟨p, executable, hp, rfl, hplace⟩ := place_write h
  simp only [has, find?, hplace, entry?_put d _ p hp, if_pos, Option.isSome_some]

/-! ## New folders -/

/-- Making folders touches no file. -/
theorem contentAt?_makeFolders {base : Place} {pieces : List Text} (h : d.makeFolders base pieces = .ok d') (p : Place) :
    d'.contentAt? p = d.contentAt? p := by
  induction pieces generalizing d base with
  | nil =>
    cases h
    rfl
  | cons piece rest ih =>
    simp only [makeFolders] at h
    split at h
    · exact ih h
    · split at h
      · exact ih h
      · split at h
        · exact ih h
        · cases h
        · rename_i hnone
          split at h
          · exact (ih h).trans (contentAt?_put_folder p (by simp) hnone)
          · cases h

/-- Making a folder touches no file. -/
theorem contentAt?_createFolder (h : d.createFolder path = .ok d') (p : Place) : d'.contentAt? p = d.contentAt? p := by
  unfold createFolder at h
  split at h
  · cases h
  · cases h
  · exact contentAt?_makeFolders h p

end Disk

end LocalePages
