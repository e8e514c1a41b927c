import LocalePages.Proofs.CleanedPaths
import LocalePages.Proofs.Entries

/-!
# Trees that a disk holds

A disk holds a tree when the folder that a root leads to has the same entries as the tree (`Disk.Holds`). The names in a folder of the
tree are listed alike on both (`Disk.Holds.names_eq`), and a piece of a path leads from there to the same place
(`Disk.Holds.walk_one_eq`), as long as it does not lead out of the tree.
-/

namespace LocalePages

namespace Disk

variable {d : Disk} {p : Place}

/-! ## Names and heights -/

/-- The order of names is a linear one. -/
theorem nameLe_iff (a b : Text) : nameLe a b = true ↔ a ≤ b := by
  rw [nameLe, Bool.not_eq_true', decide_eq_false_iff_not, not_lt]

theorem nameLe_trans (a b c : Text) (h : nameLe a b = true) (h' : nameLe b c = true) : nameLe a c = true := by
  rw [nameLe_iff] at h h' ⊢
  exact le_trans h h'

theorem nameLe_total (a b : Text) : (nameLe a b || nameLe b a) = true := by
  simp only [Bool.or_eq_true, nameLe_iff]
  exact le_total a b

/-- The name that an entry of a disk has in a folder: it is an entry of this folder. -/
theorem name_eq_some_iff {q : Place} {name : Text} :
    (match p.isPrefixOf? q with
      | some [name] => some name
      | _ => none) = some name ↔ q = p ++ [name] := by
  constructor
  · intro h
    split at h
    · rename_i hprefix
      cases h
      exact (List.append_eq_of_isPrefixOf?_eq_some hprefix).symm
    · cases h
  · rintro rfl
    rw [List.isPrefixOf?_eq_some_iff_append_eq.2 rfl]

namespace IsTree

/-- A name is listed exactly when there is something under it. -/
theorem mem_names (h : d.IsTree) {name : Text} : name ∈ d.names p ↔ d.entry? (p ++ [name]) ≠ none := by
  rw [Disk.names, List.mem_mergeSort, List.mem_filterMap]
  constructor
  · rintro ⟨⟨q, e⟩, hin, hname⟩
    cases name_eq_some_iff.1 hname
    rw [Disk.entry?, if_neg (by simp), (Members.get?_eq_some_iff h.nodup).2 hin]
    exact Option.some_ne_none e
  · intro hthere
    obtain ⟨e, he⟩ := Option.ne_none_iff_exists'.1 hthere
    rw [Disk.entry?, if_neg (by simp), Members.get?_eq_some_iff h.nodup] at he
    exact ⟨_, he, name_eq_some_iff.2 rfl⟩

/-- Each name is listed once. -/
theorem nodup_names (h : d.IsTree) (p : Place) : (Disk.names d p).Nodup := by
  refine (List.mergeSort_perm _ _).nodup_iff.2 (h.nodup_filterMap (fun name => p ++ [name]) ?_)
  rintro ⟨q, e⟩ name hname
  exact name_eq_some_iff.1 hname

/-- What is around something is there. -/
theorem entry?_ne_none_of_append (h : d.IsTree) {p : Place} (way : Place) (hthere : d.entry? (p ++ way) ≠ none) :
    d.entry? p ≠ none := by
  by_cases hway : way = []
  · rwa [hway, List.append_nil] at hthere
  · exact entry?_ne_none_of_isFolderAt (h.isFolderAt_of_entry? hway hthere)

/-- Nothing is deeper in a tree than the tree has entries. -/
theorem length_le_of_entry? (h : d.IsTree) (hthere : d.entry? p ≠ none) : p.length ≤ d.entries.length := by
  -- every part of the way is a place of its own
  have hnodup : ((List.range p.length).map fun i => p.take (i + 1)).Nodup := by
    refine List.Nodup.map_on (fun i hi j hj hij => ?_) List.nodup_range
    rw [List.mem_range] at hi hj
    have hlength := congrArg List.length hij
    rw [List.length_take, List.length_take] at hlength
    omega
  have hsubset : ((List.range p.length).map fun i => p.take (i + 1)) ⊆ d.entries.map Prod.fst := by
    intro q hq
    obtain ⟨i, hi, rfl⟩ := List.mem_map.1 hq
    rw [List.mem_range] at hi
    have hsome : d.entry? (p.take (i + 1)) ≠ none :=
      h.entry?_ne_none_of_append (p.drop (i + 1)) (by rwa [List.take_append_drop])
    obtain ⟨e, he⟩ := Option.ne_none_iff_exists'.1 hsome
    have hne : (p.take (i + 1)).isEmpty = false := by
      rw [List.isEmpty_eq_false_iff, ne_eq, List.take_eq_nil_iff, not_or]
      exact ⟨Nat.succ_ne_zero i, List.ne_nil_of_length_pos (Nat.zero_lt_of_lt hi)⟩
    rw [Disk.entry?, hne, if_neg Bool.false_ne_true, Members.get?_eq_some_iff h.nodup] at he
    exact List.mem_map.2 ⟨_, he, rfl⟩
  simpa using (List.subperm_of_subset hnodup hsubset).length_le

end IsTree

/-! ## Holding a tree -/

/-- Whether the folder that a root leads to holds the same as another disk. -/
structure Holds (d : Disk) (root : Text) (p : Place) (tree : Disk) : Prop where
  isTree : d.IsTree
  isTree_held : tree.IsTree
  isAbsolute : Path.isAbsolute root = true
  place_root : d.place root = .ok p
  isFolderAt_root : d.isFolderAt p = true
  entry?_eq : ∀ way, way ≠ [] → d.entry? (p ++ way) = tree.entry? way

variable {tree : Disk} {root : Text} {v : Place}

namespace Holds

/-- A tree is held by its own root. -/
theorem self (htree : tree.IsTree) : tree.Holds "/" [] tree := ⟨htree, htree, rfl, rfl, rfl, fun _ _ => rfl⟩

variable (h : d.Holds root p tree)

include h

/-- The path of the root spells its place. -/
theorem spells_root : d.Spells root p := (spells_of_place h.place_root).2

/-- The path of the root holds no NUL. -/
theorem null_not_mem_root : '\x00' ∉ root := by
  have hfault := (spells_of_place h.place_root).1
  unfold fault? at hfault
  split at hfault
  · cases hfault
  · rename_i hnull
    rwa [List.contains_iff_mem] at hnull

/-- The same places are folders. -/
theorem isFolderAt_eq (v : Place) : d.isFolderAt (p ++ v) = tree.isFolderAt v := by
  by_cases hv : v = []
  · rw [hv, List.append_nil, h.isFolderAt_root]
    rfl
  · rw [isFolderAt, isFolderAt, h.entry?_eq v hv]

/-- What is in the tree is on the disk. -/
theorem entry?_ne_none (hthere : tree.entry? v ≠ none) : d.entry? (p ++ v) ≠ none := by
  by_cases hv : v = []
  · rw [hv, List.append_nil]
    exact entry?_ne_none_of_isFolderAt h.isFolderAt_root
  · rwa [h.entry?_eq v hv]

/-- Nothing in the tree is deeper than one of the disks has entries. -/
theorem length_le (hthere : tree.entry? v ≠ none) : v.length ≤ min d.entries.length tree.entries.length := by
  have hlength := h.isTree.length_le_of_entry? (h.entry?_ne_none hthere)
  rw [List.length_append] at hlength
  exact Nat.le_min.2 ⟨(Nat.le_add_left _ _).trans hlength, h.isTree_held.length_le_of_entry? hthere⟩

/-- The same names are listed in the same order. -/
theorem names_eq (v : Place) : d.names (p ++ v) = tree.names v := by
  refine List.Perm.eq_of_pairwise (fun a b _ _ hab hba => ?_) (List.pairwise_mergeSort nameLe_trans nameLe_total _)
    (List.pairwise_mergeSort nameLe_trans nameLe_total _)
    ((List.perm_ext_iff_of_nodup (h.isTree.nodup_names _) (h.isTree_held.nodup_names v)).2 fun name => ?_)
  · rw [nameLe_iff] at hab hba
    exact le_antisymm hab hba
  · rw [h.isTree.mem_names, h.isTree_held.mem_names, List.append_assoc, h.entry?_eq _ (by simp)]

/-- A piece that does not lead out of the tree leads to the same place, or nowhere for the same reason. -/
theorem walk_one_eq {piece : Text} (hup : piece = ".." → v ≠ []) :
    d.walk (p ++ v) [piece] = (tree.walk v [piece]).map (p ++ ·) := by
  simp only [walk, h.isFolderAt_eq]
  split
  · rfl
  · split
    · rfl
    · split
      · rename_i hpiece
        exact congrArg Except.ok (List.dropLast_append_of_ne_nil (hup hpiece))
      · rw [List.append_assoc, h.entry?_eq _ (by simp)]
        split <;> rfl

end Holds

end Disk

end LocalePages
