import Mathlib.Logic.Relation
import Mathlib.Data.List.Nodup

/-!
# Visiting the nodes of trees

Trees are given by what stands directly in each node. A visit comes to a node before what stands in it (`preorder`). If nothing
stands in two nodes or deeper than the visit goes, the visit comes to everything that stands in the nodes it starts from
(`mem_preorder_iff`), and to nothing twice (`IsTreelike.nodup_preorder`).
-/

namespace LocalePages

open Relation

/-- Some nodes with all that stands in them, each node before what stands in it. `depth` is at least the height of the trees. -/
def preorder (inside : Nat → List Nat) : Nat → List Nat → List Nat
  | 0, _ => []
  | depth + 1, nodes => nodes.flatMap fun i => i :: preorder inside depth (inside i)

/-- Whether a node is another one or stands in it, at any depth. -/
abbrev StandsIn (inside : Nat → List Nat) : Nat → Nat → Prop := ReflTransGen fun j i => j ∈ inside i

/-- What makes nodes trees: a node is lower than the one it stands in, it stands in no other one, and it stands there once. -/
structure IsTreelike (inside : Nat → List Nat) (height : Nat → Nat) : Prop where
  lower : ∀ {i j}, j ∈ inside i → height j < height i
  unique : ∀ {i i' j}, j ∈ inside i → j ∈ inside i' → i = i'
  nodup : ∀ i, (inside i).Nodup

variable {inside inside' : Nat → List Nat} {height : Nat → Nat} {depth i i' j : Nat} {nodes : List Nat}

theorem preorder_cons (inside : Nat → List Nat) (depth i : Nat) (nodes : List Nat) :
    preorder inside (depth + 1) (i :: nodes) = i :: preorder inside depth (inside i) ++ preorder inside (depth + 1) nodes :=
  List.flatMap_cons

/-- A visit that takes the same way comes to the same nodes in the same order. -/
theorem preorder_congr (h : ∀ i ∈ preorder inside depth nodes, inside i = inside' i) :
    preorder inside depth nodes = preorder inside' depth nodes := by
  induction depth generalizing nodes with
  | zero => rfl
  | succ depth ih =>
    refine List.flatMap_congr fun i hi => ?_
    have hvisited : ∀ j ∈ i :: preorder inside depth (inside i), inside j = inside' j := fun j hj =>
      h j (List.mem_flatMap.2 ⟨i, hi, hj⟩)
    rw [ih fun j hj => hvisited j (List.mem_cons_of_mem _ hj), hvisited i List.mem_cons_self]

/-- What a visit comes to after a node, before it leaves it, stands in the node. -/
theorem standsIn_of_mem_cons (hj : j ∈ i :: preorder inside depth (inside i)) : StandsIn inside j i := by
  induction depth generalizing i with
  | zero =>
    rw [List.mem_singleton.1 hj]
  | succ depth ih =>
    obtain rfl | hj := List.mem_cons.1 hj
    · exact .refl
    · obtain ⟨k, hk, hj⟩ := List.mem_flatMap.1 hj
      exact (ih hj).tail hk

/-- What a visit comes to stands in one of the nodes that it starts from. -/
theorem exists_of_mem_preorder (hj : j ∈ preorder inside depth nodes) : ∃ i ∈ nodes, StandsIn inside j i := by
  cases depth with
  | zero => exact absurd hj List.not_mem_nil
  | succ depth =>
    obtain ⟨i, hi, hj⟩ := List.mem_flatMap.1 hj
    exact ⟨i, hi, standsIn_of_mem_cons hj⟩

namespace IsTreelike

/-- What stands in a node is not higher. -/
theorem height_le (h : IsTreelike inside height) (hin : StandsIn inside j i) : height j ≤ height i := by
  induction hin with
  | refl => exact Nat.le_refl _
  | tail _ hstep ih => exact Nat.le_trans ih (Nat.le_of_lt (h.lower hstep))

/-- A visit that goes deep enough comes to what stands in the nodes it starts from, and to nothing else. -/
theorem mem_preorder_iff (h : IsTreelike inside height) (hdepth : ∀ i ∈ nodes, height i < depth) :
    j ∈ preorder inside depth nodes ↔ ∃ i ∈ nodes, StandsIn inside j i := by
  induction depth generalizing nodes with
  | zero =>
    refine iff_of_false List.not_mem_nil ?_
    rintro ⟨i, hi, -⟩
    exact Nat.not_lt_zero _ (hdepth i hi)
  | succ depth ih =>
    rw [preorder, List.mem_flatMap]
    refine exists_congr fun i => and_congr_right fun hi => ?_
    have hbelow : ∀ k ∈ inside i, height k < depth := fun k hk =>
      Nat.lt_of_lt_of_le (h.lower hk) (Nat.le_of_lt_succ (hdepth i hi))
    rw [List.mem_cons, ih hbelow, StandsIn, ReflTransGen.cases_tail_iff, eq_comm (a := j)]
    simp only [and_comm]

/-- Of two nodes with the same place in the trees, none stands in the other one. -/
theorem eq_of_standsIn (h : IsTreelike inside height) (hsame : ∀ k, i ∈ inside k → i' ∈ inside k) (hin : StandsIn inside i i') :
    i = i' := by
  obtain rfl | ⟨k, hk, hin⟩ := hin.cases_head
  · rfl
  · exact absurd (h.height_le hin) (Nat.not_le_of_lt (h.lower (hsame k hk)))

/-- Nodes with the same place in the trees have nothing in common. -/
theorem eq_of_common (h : IsTreelike inside height) (hsame : ∀ k, i ∈ inside k ↔ i' ∈ inside k) (hin : StandsIn inside j i)
    (hin' : StandsIn inside j i') : i = i' := by
  obtain hup | hup := ReflTransGen.total_of_right_unique (r := fun j i => j ∈ inside i) (fun _ _ _ => h.unique) hin hin'
  · exact h.eq_of_standsIn (fun k => (hsame k).1) hup
  · exact (h.eq_of_standsIn (fun k => (hsame k).2) hup).symm

/-- A visit of nodes with the same place in the trees comes to nothing twice. -/
theorem nodup_preorder (h : IsTreelike inside height) (hnodup : nodes.Nodup)
    (hsame : ∀ i ∈ nodes, ∀ i' ∈ nodes, ∀ k, i ∈ inside k → i' ∈ inside k) : (preorder inside depth nodes).Nodup := by
  induction depth generalizing nodes with
  | zero => exact List.nodup_nil
  | succ depth ih =>
    rw [preorder, List.nodup_flatMap]
    refine ⟨fun i _ => List.nodup_cons.2 ⟨fun hi => ?_, ih (h.nodup i) fun j hj j' hj' k hk => ?_⟩, ?_⟩
    · obtain ⟨k, hk, hin⟩ := exists_of_mem_preorder hi
      exact Nat.not_le_of_lt (h.lower hk) (h.height_le hin)
    · rwa [h.unique hk hj]
    · refine hnodup.imp_of_mem fun hi hi' hne => List.disjoint_left.2 fun j hj hj' => hne ?_
      exact h.eq_of_common (fun k => ⟨hsame _ hi _ hi' k, hsame _ hi' _ hi k⟩) (standsIn_of_mem_cons hj)
        (standsIn_of_mem_cons hj')

end IsTreelike

end LocalePages
