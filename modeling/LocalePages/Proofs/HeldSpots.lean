import LocalePages.Proofs.HeldTrees
import LocalePages.Proofs.ModulePaths
import LocalePages.Proofs.PlainPatterns
import Mathlib.Data.List.Forall2

/-!
# Expanding patterns in a held tree

Components that stay inside a tree (`Glob.staysInside`) are followed on a disk that holds it as they are followed on the tree: each spot
on the disk goes along with one on the tree (`GlobSpot.GoesAlong`), each step leads from two such spots to two such spots, and so the
paths that are found go along with each other in the same order (`Glob.forall₂_inside`). How deep the tree is bounds the fuel, and how
long its ways are bounds the paths.
-/

namespace LocalePages

/-! ## Where components lead -/

namespace GlobPattern

/-- Whether a component can lead to the folder around the one where it is read. -/
def leadsUp (q : GlobPattern) : Bool :=
  match q.literal? with
  | some name => name == ".."
  | none => (Glob.dotNames q).contains ".."

/-- Whether a component leads to entries of the folder where it is read, and nowhere else. -/
def leadsDown (q : GlobPattern) : Bool :=
  match q.literal? with
  | some name => !Path.isIdle name
  | none => !q.isRecursive && (Glob.dotNames q).isEmpty

/-- Whether a component is followed by a name, and not compared with the entries of a folder. -/
def Takes (q : GlobPattern) (name : Text) : Prop := q.literal? = some name ∨ (q.literal? = none ∧ name ∈ Glob.dotNames q)

/-- How much longer a component can make a path, and the way that is left, when no way is longer than `reach`. -/
def room (reach : Nat) (q : GlobPattern) : Nat :=
  if q.leadsUp then reach + 3
  else
    match q.literal? with
    | some name => Utf8.size name + 1
    | none => 3

end GlobPattern

namespace Glob

open GlobPattern

/-- The names a component finds in every folder are those of the folder around it and of itself. -/
theorem eq_of_mem_dotNames {q : GlobPattern} {name : Text} (h : name ∈ dotNames q) : name = ".." ∨ name = "." := by
  unfold dotNames at h
  split at h
  · simpa using List.mem_of_mem_filter h
  · cases h

/-- Whether components never lead out of a folder from a depth below it. -/
def staysInside : Nat → List GlobPattern → Bool
  | _, [] => true
  | depth, q :: rest =>
    if q.leadsUp then depth != 0 && staysInside (depth - 1) rest
    else staysInside (if q.leadsDown then depth + 1 else depth) rest

/-- How much longer components can make a path. -/
def roomOf (reach : Nat) (components : List GlobPattern) : Nat := (components.map (room reach)).sum

variable {components rest : List GlobPattern} {depth depth' : Nat} {q : GlobPattern} {name : Text}

/-- From further down it is no shorter way out. -/
theorem staysInside_mono (hle : depth ≤ depth') (h : staysInside depth components = true) : staysInside depth' components = true := by
  induction components generalizing depth depth' with
  | nil => rfl
  | cons q rest ih =>
    rw [staysInside] at h ⊢
    split
    · rw [if_pos ‹_›, Bool.and_eq_true, bne_iff_ne] at h
      rw [Bool.and_eq_true, bne_iff_ne]
      exact ⟨by omega, ih (by omega) h.2⟩
    · rw [if_neg ‹_›] at h
      exact ih (by split <;> omega) h

/-- What stays inside stays inside after its first component has led down. -/
theorem staysInside_tail (h : staysInside depth (q :: rest) = true) : staysInside (depth + 1) rest = true := by
  rw [staysInside] at h
  split at h
  · rw [Bool.and_eq_true] at h
    exact staysInside_mono (by omega) h.2
  · exact staysInside_mono (by split <;> omega) h

/-- What stays inside stays inside without components that stand for any number of folders. -/
theorem staysInside_dropWhile (h : staysInside depth components = true) :
    staysInside depth (components.dropWhile isRecursive) = true := by
  induction components with
  | nil => rfl
  | cons q rest ih =>
    rw [List.dropWhile_cons]
    split
    · rename_i hrecursive
      -- such a component never leads down
      have hdown : q.leadsDown = false := by
        unfold leadsDown
        split
        · rename_i name hliteral
          rw [literal?_eq_some_iff] at hliteral
          subst hliteral
          simp [isRecursive, ofText] at hrecursive
        · rw [hrecursive]
          rfl
      refine ih ?_
      rw [staysInside, hdown] at h
      split at h
      · rw [Bool.and_eq_true] at h
        exact staysInside_mono (Nat.sub_le _ _) h.2
      · exact h
    · exact h

/-- Components that stand for any number of folders may be dropped after the first one. -/
theorem staysInside_cons_dropWhile (h : staysInside depth (q :: rest) = true) :
    staysInside depth (q :: rest.dropWhile isRecursive) = true := by
  rw [staysInside] at h ⊢
  split
  · rw [if_pos ‹_›, Bool.and_eq_true] at h
    rw [Bool.and_eq_true]
    exact ⟨h.1, staysInside_dropWhile h.2⟩
  · rw [if_neg ‹_›] at h
    exact staysInside_dropWhile h

theorem roomOf_cons (reach : Nat) (q : GlobPattern) (rest : List GlobPattern) :
    roomOf reach (q :: rest) = q.room reach + roomOf reach rest := List.sum_cons

/-- Fewer components take no more room. -/
theorem roomOf_le (reach : Nat) (h : rest.Sublist components) : roomOf reach rest ≤ roomOf reach components := by
  induction h with
  | slnil => exact Nat.le_refl _
  | cons q _ ih =>
    rw [roomOf_cons]
    exact ih.trans (Nat.le_add_left _ _)
  | cons_cons q _ ih =>
    rw [roomOf_cons, roomOf_cons]
    exact Nat.add_le_add_left ih _

end Glob

namespace GlobPattern.Takes

variable {q : GlobPattern} {name : Text} (h : q.Takes name)

include h

/-- A component that takes the name of the folder around it can lead up. -/
theorem leadsUp (hup : name = "..") : q.leadsUp = true := by
  subst hup
  unfold GlobPattern.leadsUp
  rcases h with hliteral | ⟨hliteral, hin⟩ <;> rw [hliteral]
  · rfl
  · exact List.contains_iff_mem.2 hin

/-- A component that takes a name that says nothing does not only lead down. -/
theorem leadsDown (hidle : Path.isIdle name = true) : q.leadsDown = false := by
  unfold GlobPattern.leadsDown
  rcases h with hliteral | ⟨hliteral, hin⟩ <;> rw [hliteral]
  · exact congrArg (!·) hidle
  · have hsome : (Glob.dotNames q).isEmpty = false := List.isEmpty_eq_false_iff.2 (List.ne_nil_of_mem hin)
    rw [hsome, Bool.and_false]

/-- A component that stays inside a folder does not take the name of the folder around it there. -/
theorem ne_nil {v : Place} {rest : List GlobPattern} (hstays : Glob.staysInside v.length (q :: rest) = true) : name = ".." → v ≠ [] := by
  rintro hup rfl
  rw [Glob.staysInside, if_pos (h.leadsUp hup)] at hstays
  cases hstays

/-- There is room for the name that a component takes, and after a name that can lead up for a whole way. -/
theorem size_lt_room (reach : Nat) : Utf8.size name + 1 + (if q.leadsUp then reach else 0) ≤ q.room reach := by
  have hdots : name ∈ Glob.dotNames q → Utf8.size name ≤ 2 := fun hin =>
    (Glob.eq_of_mem_dotNames hin).elim (· ▸ by decide) (· ▸ by decide)
  unfold room
  split
  · rename_i hup
    have hsize : Utf8.size name ≤ 2 := by
      rcases h with hliteral | ⟨-, hin⟩
      · rw [GlobPattern.leadsUp, hliteral] at hup
        rw [beq_iff_eq.1 hup]
        decide
      · exact hdots hin
    omega
  · rcases h with hliteral | ⟨hliteral, hin⟩
    · rw [hliteral]
    · rw [hliteral]
      exact Nat.succ_le_succ (hdots hin)

end GlobPattern.Takes

/-! ## Spots that go along with each other -/

/-- What holds no slash does not start at the root. -/
theorem Path.isAbsolute_eq_false {name : Text} (h : '/' ∉ name) : isAbsolute name = false := by
  rw [← Bool.not_eq_true]
  intro habsolute
  obtain ⟨rest, rfl⟩ := exists_of_isAbsolute habsolute
  exact h List.mem_cons_self

/-- The path of a further piece spells where the piece leads. -/
theorem Disk.Spells.join_piece {d : Disk} {path piece : Text} {p q : Place} (h : d.Spells path p) (hslash : '/' ∉ piece)
    (hwalk : d.walk p [piece] = .ok q) : d.Spells (Path.join path piece) q := by
  have hrelative := Path.isAbsolute_eq_false hslash
  have hpieces : Path.segments (Path.join path piece) = Path.leadPieces path ++ [piece] := by
    rw [Path.segments_join_of_relative path hrelative]
    exact congrArg (Path.leadPieces path ++ ·) (List.splitOn_eq_singleton hslash)
  have hstart : d.start (Path.join path piece) = ((d.start path).1, Path.leadPieces path ++ [piece]) := by
    unfold start
    rw [Path.isAbsolute_join_of_relative path hrelative, hpieces]
    split <;> rfl
  rw [Spells, hstart]
  exact (walk_lead h [piece]).trans hwalk

/-- Where a name leads on a tree that a component takes there: something is there, the other components stay inside from there, and a
longest way is left as long as there is room for it. -/
theorem Disk.IsTree.walk_takes {tree : Disk} (h : tree.IsTree) {reach : Nat} (hreach : ∀ way, tree.entry? way ≠ none → way.size ≤ reach)
    {v w : Place} (hthere : tree.entry? v ≠ none) {q : GlobPattern} {rest : List GlobPattern}
    (hstays : Glob.staysInside v.length (q :: rest) = true) {name : Text} (hname : q.Takes name) (hwalk : tree.walk v [name] = .ok w) :
    tree.entry? w ≠ none ∧ Glob.staysInside w.length rest = true ∧
      reach - w.size + (Utf8.size name + 1) ≤ q.room reach + (reach - v.size) := by
  have hroom := hname.size_lt_room reach
  obtain ⟨-, next, hend, hnext⟩ := walk_cons_eq_ok_iff.1 hwalk
  cases hend
  rcases hnext with ⟨hidle, rfl⟩ | ⟨hup, rfl⟩ | ⟨-, -, rfl, hnew⟩
  · refine ⟨hthere, ?_, by omega⟩
    rw [Glob.staysInside, hname.leadsDown hidle] at hstays
    split at hstays
    · rw [Bool.and_eq_true] at hstays
      exact Glob.staysInside_mono (Nat.sub_le _ _) hstays.2
    · exact hstays
  · rw [if_pos (hname.leadsUp hup)] at hroom
    rw [Glob.staysInside, if_pos (hname.leadsUp hup), Bool.and_eq_true] at hstays
    refine ⟨?_, by rw [List.length_dropLast]; exact hstays.2, by omega⟩
    by_cases hv : v = []
    · rw [hv] at hthere ⊢
      exact hthere
    · rw [← List.dropLast_append_getLast hv] at hthere
      exact h.entry?_ne_none_of_append _ hthere
  · have hlength := hreach _ hnew
    refine ⟨hnew, ?_, ?_⟩
    · rw [List.length_append]
      exact Glob.staysInside_tail hstays
    · rw [Place.size_append, Place.size_cons] at hlength ⊢
      omega

/-- Whether a spot of a disk goes along with a spot of a tree that the disk holds, and both can go on along the components. -/
structure GlobSpot.GoesAlong (d : Disk) (root : Text) (p : Place) (tree : Disk) (reach : Nat) (components : List GlobPattern)
    (s s' : GlobSpot) : Prop where
  place_eq : s.place = p ++ s'.place
  saying_eq : Path.saying s.path = Path.saying root ++ Path.saying s'.path
  isAbsolute : Path.isAbsolute s.path = true ∧ Path.isAbsolute s'.path = true
  spells : d.Spells s.path s.place ∧ tree.Spells s'.path s'.place
  there : tree.entry? s'.place ≠ none
  stays : Glob.staysInside s'.place.length components = true
  slashes : ∀ q ∈ components, ∀ name, q.literal? = some name → '/' ∉ name
  short : max (Utf8.size s.path) (Utf8.size s'.path) + Glob.roomOf reach components + (reach - s'.place.size) ≤ Disk.pathLimit

namespace GlobSpot.GoesAlong

variable {d tree : Disk} {root : Text} {p : Place} {reach : Nat} {components rest : List GlobPattern} {q : GlobPattern}
variable {s s' : GlobSpot} {name : Text}

/-- Spots that go along with each other do so one name further, as long as there is room for the name. -/
theorem grow (hs : GoesAlong d root p tree reach components s s') (hrelative : Path.isAbsolute name = false) {w : Place}
    (hspells : d.Spells (Path.join s.path name) (p ++ w)) (hspells' : tree.Spells (Path.join s'.path name) w)
    (hthere : tree.entry? w ≠ none) (hstays : Glob.staysInside w.length rest = true) (hrest : rest ⊆ components)
    (hroom : Utf8.size name + 1 + Glob.roomOf reach rest + (reach - w.size) ≤
      Glob.roomOf reach components + (reach - s'.place.size)) :
    GoesAlong d root p tree reach rest ⟨Path.join s.path name, p ++ w⟩ ⟨Path.join s'.path name, w⟩ := by
  have hshort := hs.short
  have hjoin := Path.size_join_le s.path hrelative
  have hjoin' := Path.size_join_le s'.path hrelative
  refine ⟨rfl, ?_, ⟨?_, ?_⟩, ⟨hspells, hspells'⟩, hthere, hstays, fun r hr => hs.slashes r (hrest hr), by dsimp only; omega⟩
  · rw [Path.saying_join _ hrelative, Path.saying_join _ hrelative, hs.saying_eq, List.append_assoc]
  · exact (Path.isAbsolute_join_of_relative _ hrelative).trans hs.isAbsolute.1
  · exact (Path.isAbsolute_join_of_relative _ hrelative).trans hs.isAbsolute.2

/-- A name leads from spots that go along with each other to spots that do. -/
theorem step (hs : GoesAlong d root p tree reach (q :: rest) s s') (h : d.Holds root p tree)
    (hreach : ∀ way, tree.entry? way ≠ none → way.size ≤ reach) (hname : q.Takes name) :
    List.Forall₂ (GoesAlong d root p tree reach rest) (s.step? d name).toList (s'.step? tree name).toList := by
  have hslash : '/' ∉ name := by
    rcases hname with hliteral | ⟨-, hin⟩
    · exact hs.slashes q List.mem_cons_self name hliteral
    · exact (Glob.eq_of_mem_dotNames hin).elim (· ▸ by decide) (· ▸ by decide)
  have hrelative := Path.isAbsolute_eq_false hslash
  have hroom := hname.size_lt_room reach
  have hshort := hs.short
  rw [Glob.roomOf_cons] at hshort
  have hjoin := Path.size_join_le s.path hrelative
  have hjoin' := Path.size_join_le s'.path hrelative
  have hwalk := h.walk_one_eq (hname.ne_nil hs.stays)
  rw [← hs.place_eq] at hwalk
  rw [step?, step?, if_neg (by omega), if_neg (by omega), hwalk]
  cases hone : tree.walk s'.place [name] with
  | error e => exact .nil
  | ok w =>
    rw [hone] at hwalk
    obtain ⟨hthere, hstays, hleft⟩ := h.isTree_held.walk_takes hreach hs.there hs.stays hname hone
    refine .cons (hs.grow hrelative (hs.spells.1.join_piece hslash hwalk) (hs.spells.2.join_piece hslash hone) hthere hstays
      (List.subset_cons_self q rest) ?_) .nil
    rw [Glob.roomOf_cons]
    omega

/-- An entry of a folder leads from spots that go along with each other to spots that do. -/
theorem entry (hs : GoesAlong d root p tree reach components s s') (h : d.Holds root p tree)
    (hreach : ∀ way, tree.entry? way ≠ none → way.size ≤ reach) (hname : name ∈ tree.names s'.place) (hrest : rest.Sublist components)
    (hstays : Glob.staysInside (s'.place.length + 1) rest = true) :
    GoesAlong d root p tree reach rest (s.entry name) (s'.entry name) := by
  have hthere := h.isTree_held.mem_names.1 hname
  have hproper : Path.IsName name := h.isTree_held.names _ hthere name (by simp)
  have hfolder : tree.isFolderAt s'.place = true := h.isTree_held.parents _ name hthere
  have hspells := hs.spells.1
  rw [hs.place_eq] at hspells
  have hspells' := hspells.join hproper ((h.isFolderAt_eq _).trans hfolder) (by rw [List.append_assoc]; exact h.entry?_ne_none hthere)
  have hroom := Glob.roomOf_le reach hrest
  have hlength := hreach _ hthere
  rw [GlobSpot.entry, GlobSpot.entry, hs.place_eq, List.append_assoc]
  rw [List.append_assoc] at hspells'
  refine hs.grow hproper.isAbsolute_eq_false hspells' (hs.spells.2.join hproper hfolder hthere) hthere ?_ hrest.subset ?_
  · rw [List.length_append]
    exact hstays
  · rw [Place.size_append, Place.size_cons] at hlength ⊢
    omega

end GlobSpot.GoesAlong

namespace Glob

variable {d tree : Disk} {root : Text} {p : Place} {reach height : Nat} {components rest : List GlobPattern} {q : GlobPattern}
variable {s s' : GlobSpot} {name : Text} {foldersOnly : Bool}

/-- Whether paths that are found lead to spots that go along with each other. -/
def FoundAlong (d : Disk) (root : Text) (p : Place) (tree : Disk) (reach : Nat) (path path' : Text) : Prop :=
  ∃ v, GlobSpot.GoesAlong d root p tree reach [] ⟨path, p ++ v⟩ ⟨path', v⟩

/-- The fuel that components ask for from a place on, when nothing is deeper than a height: each component may be followed by a way
down, and every step takes two. -/
def need (height : Nat) (components : List GlobPattern) (place : Place) : Nat :=
  2 * (components.length * (height + 1) + (height - place.length)) + 2

/-- Fewer components need less fuel, wherever they are followed from. -/
theorem need_of_length_lt (hrest : rest.length < components.length) (v w : Place) :
    need height rest w + 2 ≤ need height components v := by
  have hmul : rest.length * (height + 1) + (height + 1) ≤ components.length * (height + 1) := by
    rw [← Nat.succ_mul]
    exact Nat.mul_le_mul_right _ hrest
  unfold need
  omega

/-- From an entry of a folder on, as many components need less fuel. -/
theorem need_of_entry {v : Place} (name : Text) (hrest : rest.length ≤ components.length) (hv : (v ++ [name]).length ≤ height) :
    need height rest (v ++ [name]) + 2 ≤ need height components v := by
  have hmul : rest.length * (height + 1) ≤ components.length * (height + 1) := Nat.mul_le_mul_right _ hrest
  unfold need
  rw [List.length_append, List.length_singleton] at hv ⊢
  omega

/-- Spots that go along with each other are folders alike. -/
theorem isFolder_eq (h : d.Holds root p tree) (hs : GlobSpot.GoesAlong d root p tree reach components s s') :
    s.isFolder d = s'.isFolder tree := by
  rw [GlobSpot.isFolder, GlobSpot.isFolder, hs.place_eq, h.isFolderAt_eq]

/-- The paths of spots that go along with each other do so. -/
theorem foundAlong (hs : GlobSpot.GoesAlong d root p tree reach [] s s') : FoundAlong d root p tree reach s.path s'.path := by
  refine ⟨s'.place, ?_⟩
  rw [← hs.place_eq]
  exact hs

/-- What comes from the same items one after the other is related when what comes from each item is. -/
theorem forall₂_flatMap {α β γ : Type} {R : β → γ → Prop} {items : List α} {f : α → List β} {g : α → List γ}
    (h : ∀ a ∈ items, List.Forall₂ R (f a) (g a)) : List.Forall₂ R (items.flatMap f) (items.flatMap g) := by
  induction items with
  | nil => exact .nil
  | cons a items ih =>
    obtain ⟨ha, hitems⟩ := List.forall_mem_cons.1 h
    exact List.rel_append ha (ih hitems)

/-- What is found below the names of a folder goes along with each other, when what is found inside with less fuel does. -/
theorem forall₂_among (h : d.Holds root p tree) (hreach : ∀ way, tree.entry? way ≠ none → way.size ≤ reach)
    (hheight : ∀ way, tree.entry? way ≠ none → way.length ≤ height) {fuel fuel' : Nat}
    (hinside : ∀ {components s s'}, GlobSpot.GoesAlong d root p tree reach components s s' →
      need height components s'.place ≤ fuel → need height components s'.place ≤ fuel' →
      List.Forall₂ (FoundAlong d root p tree reach) (inside d foldersOnly fuel components s) (inside tree foldersOnly fuel' components s'))
    (hs : GlobSpot.GoesAlong d root p tree reach (q :: rest) s s') (hname : name ∈ tree.names s'.place)
    (hfuel : need height (q :: rest) s'.place ≤ fuel + 2) (hfuel' : need height (q :: rest) s'.place ≤ fuel' + 2) :
    List.Forall₂ (FoundAlong d root p tree reach) (among d foldersOnly (fuel + 1) q rest name (s.entry name))
      (among tree foldersOnly (fuel' + 1) q rest name (s'.entry name)) := by
  have hdepth : (s'.place ++ [name]).length ≤ height := hheight _ (h.isTree_held.mem_names.1 hname)
  -- the spot of the entry, with components that are left there
  have hnext : ∀ {left : List GlobPattern}, left.Sublist (q :: rest) → staysInside (s'.place.length + 1) left = true →
      List.Forall₂ (FoundAlong d root p tree reach)
        (inside d foldersOnly fuel left (s.entry name)) (inside tree foldersOnly fuel' left (s'.entry name)) := by
    intro left hsub hstays
    have hneed : need height left (s'.entry name).place + 2 ≤ need height (q :: rest) s'.place := need_of_entry name hsub.length_le hdepth
    exact hinside (hs.entry h hreach hname hsub hstays) (by omega) (by omega)
  have hfolder : (s.entry name).isFolder d = (s'.entry name).isFolder tree :=
    isFolder_eq h (hs.entry h hreach hname (List.nil_sublist _) rfl)
  simp only [among]
  split
  · rename_i hrecursive
    have hleft := staysInside_dropWhile hs.stays
    rw [List.dropWhile_cons_of_pos hrecursive] at hleft
    have hsub : (rest.dropWhile GlobPattern.isRecursive).Sublist rest := List.dropWhile_sublist _
    have hagain := hnext (hsub.cons_cons q) (staysInside_mono (Nat.le_succ _) (staysInside_cons_dropWhile hs.stays))
    have hdeeper : List.Forall₂ (FoundAlong d root p tree reach)
        (if (s.entry name).isFolder d then inside d foldersOnly fuel (q :: rest.dropWhile GlobPattern.isRecursive) (s.entry name) else [])
        (if (s'.entry name).isFolder tree then
          inside tree foldersOnly fuel' (q :: rest.dropWhile GlobPattern.isRecursive) (s'.entry name) else []) := by
      rw [hfolder]
      split
      · exact hagain
      · exact .nil
    cases hrest : rest.dropWhile GlobPattern.isRecursive with
    | nil =>
      rw [hrest, hfolder] at hdeeper
      rw [hfolder]
      cases hkind : (s'.entry name).isFolder tree with
      | false => exact .nil
      | true =>
        rw [hkind] at hdeeper
        exact .cons (foundAlong (hs.entry h hreach hname (List.nil_sublist _) rfl)) hdeeper
    | cons next others =>
      rw [hrest] at hleft hsub hdeeper
      refine List.rel_append ?_ hdeeper
      split
      · exact hnext (((List.sublist_cons_self next others).trans hsub).cons q) (staysInside_tail hleft)
      · exact .nil
  · split
    · exact hnext (List.sublist_cons_self q rest) (staysInside_tail hs.stays)
    · exact .nil

/-- With enough fuel the paths that are found from spots that go along with each other do so. -/
theorem forall₂_inside (h : d.Holds root p tree) (hreach : ∀ way, tree.entry? way ≠ none → way.size ≤ reach)
    (hheight : ∀ way, tree.entry? way ≠ none → way.length ≤ height) {fuel fuel' : Nat}
    (hs : GlobSpot.GoesAlong d root p tree reach components s s')
    (hfuel : need height components s'.place ≤ fuel) (hfuel' : need height components s'.place ≤ fuel') :
    List.Forall₂ (FoundAlong d root p tree reach) (inside d foldersOnly fuel components s)
      (inside tree foldersOnly fuel' components s') := by
  induction fuel using Nat.strongRecOn generalizing fuel' components s s' with
  | ind fuel ih =>
    have hpositive : 2 ≤ need height components s'.place := Nat.le_add_left _ _
    obtain ⟨n, rfl⟩ : ∃ n, fuel = n + 2 := ⟨fuel - 2, by omega⟩
    obtain ⟨m, rfl⟩ : ∃ m, fuel' = m + 2 := ⟨fuel' - 2, by omega⟩
    cases components with
    | nil =>
      simp only [inside, found]
      rw [isFolder_eq h hs]
      split
      · exact .cons (foundAlong hs) .nil
      · exact .nil
    | cons q rest =>
      -- what follows after a name that the component takes
      have hstep : ∀ name, q.Takes name → List.Forall₂ (FoundAlong d root p tree reach)
          ((s.step? d name).toList.flatMap fun next => inside d foldersOnly (n + 1) rest next)
          ((s'.step? tree name).toList.flatMap fun next => inside tree foldersOnly (m + 1) rest next) := by
        intro name hname
        refine List.rel_flatMap (hs.step h hreach hname) fun next next' hnext => ?_
        have hneed : need height rest next'.place + 2 ≤ need height (q :: rest) s'.place :=
          need_of_length_lt (Nat.lt_succ_self _) _ _
        exact ih (n + 1) (by omega) hnext (by omega) (by omega)
      simp only [inside]
      split
      · exact hstep _ (Or.inl ‹_›)
      · rename_i hliteral
        rw [isFolder_eq h hs]
        split
        · refine List.rel_append (forall₂_flatMap fun name hin => hstep name (Or.inr ⟨hliteral, hin⟩)) ?_
          rw [hs.place_eq, h.names_eq]
          exact forall₂_flatMap fun name hin =>
            forall₂_among h hreach hheight (fun hs => ih n (by omega) hs) hs hin hfuel hfuel'
        · exact .nil

end Glob

end LocalePages
