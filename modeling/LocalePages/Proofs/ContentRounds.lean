import LocalePages.Proofs.Planting
import LocalePages.Proofs.TreeOrder
import Mathlib.Data.Finset.Card

/-!
# Moving what templates hold into the templates

The document of a page has what its templates hold among the templates' children. In an arena that comes about in rounds
(`Arena.inlineContents`): a round collects the templates of the page that hold something, in order, and then moves what they hold to
the end of their children. That brings the templates into the page that stood in others, so there are rounds until none holds
anything.

What the rounds do not change is what stands in a node: its children and then what it holds (`Arena.inner`). One move keeps that
(`Arena.IsForest.sameInside_of_moves`), and leaves one template less that holds something. So there are at most as many rounds as
nodes, and in the end the children of the page are visited as its nodes were before, each template's children first and then what it
holds (`Arena.IsForest.order_eq_visits`).
-/

namespace LocalePages

namespace Arena

variable {a a' a'' : Arena} {i j t c source target depth fuel : Nat} {nodes more : List Nat}

/-! ## What stands in a node -/

/-- The children of the node at a place. -/
def children (a : Arena) (i : Nat) : List Nat := (a.cell i).children

/-- The root of what a template holds. -/
def contents? (a : Arena) (i : Nat) : Option Nat :=
  match (a.cell i).shape with
  | .element _ _ contents => contents
  | _ => none

/-- What the element at a place holds besides its children. -/
def held (a : Arena) (i : Nat) : List Nat :=
  match a.contents? i with
  | some root => a.children root
  | none => []

/-- What stands in the element at a place: its children and then what it holds. -/
def inner (a : Arena) (i : Nat) : List Nat :=
  match (a.cell i).shape with
  | .element _ _ _ => a.children i ++ a.held i
  | _ => []

/-- The nodes of a page: those that stand in the document, in others' children, and in what others hold. -/
inductive InPage (a : Arena) : Nat → Prop
  | top {i : Nat} : i ∈ a.children document → InPage a i
  | child {i j : Nat} : InPage a i → j ∈ a.children i → InPage a j
  | held {i j : Nat} : InPage a i → j ∈ a.held i → InPage a j

/-- The nodes that stand in the document and in its nodes' children, each before its children. -/
def order (a : Arena) : List Nat := preorder a.children (a.size + 1) (a.children document)

/-- The nodes of a page, each before what stands in it: first its children and then what it holds. -/
def visits (a : Arena) : List Nat := preorder a.inner (a.size + 1) (a.children document)

theorem contents?_of_element {name : ElementName} {attrs : Attrs} {contents : Option Nat}
    (h : (a.cell i).shape = .element name attrs contents) : a.contents? i = contents := by
  rw [contents?, h]

theorem exists_of_contents?_eq_some (h : a.contents? t = some c) :
    ∃ name attrs, (a.cell t).shape = .element name attrs (some c) := by
  unfold contents? at h
  split at h
  · next name attrs contents hshape => exact ⟨name, attrs, h ▸ hshape⟩
  · cases h

theorem held_of_contents? (h : a.contents? t = some c) : a.held t = a.children c := by
  rw [held, h]

theorem exists_of_mem_held (h : j ∈ a.held i) : ∃ c, a.contents? i = some c ∧ j ∈ a.children c := by
  unfold held at h
  split at h
  · next c hc => exact ⟨c, hc, h⟩
  · cases h

theorem inner_of_element {name : ElementName} {attrs : Attrs} {contents : Option Nat}
    (h : (a.cell i).shape = .element name attrs contents) : a.inner i = a.children i ++ a.held i := by
  rw [inner, h]

/-- What stands in a node is one of the children of an element, or one of the nodes that it holds. -/
theorem mem_inner_iff :
    j ∈ a.inner i ↔ (∃ name attrs contents, (a.cell i).shape = .element name attrs contents) ∧
      (j ∈ a.children i ∨ j ∈ a.held i) := by
  unfold inner
  split
  · next name attrs contents hshape =>
    rw [List.mem_append]
    exact ⟨fun h => ⟨⟨name, attrs, contents, hshape⟩, h⟩, fun h => h.2⟩
  · next hshape =>
    refine iff_of_false List.not_mem_nil ?_
    rintro ⟨⟨name, attrs, contents, h⟩, -⟩
    exact hshape name attrs contents h

theorem trees_nil (a : Arena) (depth : Nat) : a.trees depth [] = [] := by
  cases depth <;> rfl

/-- An element is read off with its children and with what it holds. -/
theorem trees_of_element {name : ElementName} {attrs : Attrs} {contents : Option Nat}
    (h : (a.cell i).shape = .element name attrs contents) :
    a.trees (depth + 1) [i] = [.element name attrs (a.trees depth (a.children i)) (a.trees depth (a.held i))] := by
  rw [held, contents?_of_element h, trees]
  cases contents <;> simp [h, children, trees_nil]

/-- An element is shown with what stands in it. -/
theorem shown_of_element {name : ElementName} {attrs : Attrs} {contents : Option Nat}
    (h : (a.cell i).shape = .element name attrs contents) :
    a.shown (depth + 1) [i] = [.element name attrs (a.shown depth (a.inner i))] := by
  rw [inner_of_element h, shown, shown, trees_of_element h, trees_append, inlinedAll_append]
  rfl

/-- There is nothing but roots beyond the end of an arena. -/
theorem lt_size_of_shape (h : (a.cell i).shape ≠ .root) : i < a.size := by
  by_contra hsize
  exact h (by rw [cell_of_size_le (Nat.le_of_not_lt hsize)])

/-- A template is no root. -/
theorem shape_ne_root_of_contents? (h : a.contents? t = some c) : (a.cell t).shape ≠ .root := by
  obtain ⟨name, attrs, hshape⟩ := exists_of_contents?_eq_some h
  simp [hshape]

theorem lt_size_of_contents? (h : a.contents? t = some c) : t < a.size := lt_size_of_shape (shape_ne_root_of_contents? h)

/-! ## Pages -/

/-- Whether the node at a place may have others in it: it is a root or an element. -/
def MayHold (a : Arena) (i : Nat) : Prop :=
  (a.cell i).shape = .root ∨ ∃ name attrs contents, (a.cell i).shape = .element name attrs contents

theorem MayHold.congr (hshape : (a'.cell i).shape = (a.cell i).shape) (h : a.MayHold i) : a'.MayHold i := by
  rwa [MayHold, hshape]

/-- What the nodes of an arena are like after a page was read. The document is a root. A child knows the node it is a child of, and is
no root. Only roots and elements have children. What a template holds are the children of a root that is not the document and belongs
to no other template. No node stands in itself, so nothing is deeper than there are nodes. -/
structure IsForest (a : Arena) : Prop where
  top : (a.cell document).shape = .root
  parent : ∀ {i j}, j ∈ a.children i → (a.cell j).parent = some i
  node : ∀ {i j}, j ∈ a.children i → (a.cell j).shape ≠ .root
  nodup : ∀ i, (a.children i).Nodup
  inside : ∀ {i j}, j ∈ a.children i → a.MayHold i
  root : ∀ {t c}, a.contents? t = some c → (a.cell c).shape = .root ∧ c ≠ document
  unique : ∀ {t t' c}, a.contents? t = some c → a.contents? t' = some c → t = t'
  bounded : ∃ height : Nat → Nat, (∀ i, height i ≤ a.size) ∧ ∀ i, ∀ j ∈ a.inner i, height j < height i

namespace IsForest

/-- What a template holds has another parent than the template. -/
theorem ne_of_contents? (h : a.IsForest) (hc : a.contents? t = some c) : t ≠ c := by
  rintro rfl
  exact shape_ne_root_of_contents? hc (h.root hc).1

/-- No node is a child of two. -/
theorem disjoint_children {i' : Nat} (h : a.IsForest) (hne : i ≠ i') : List.Disjoint (a.children i) (a.children i') := by
  intro j hj hj'
  have hsame : some i = some i' := (h.parent hj).symm.trans (h.parent hj')
  exact hne (Option.some_inj.1 hsame)

theorem nodup_held (h : a.IsForest) (i : Nat) : (a.held i).Nodup := by
  unfold held
  split
  · exact h.nodup _
  · exact List.nodup_nil

/-- What stands in a node stands there once. -/
theorem nodup_inner (h : a.IsForest) (i : Nat) : (a.inner i).Nodup := by
  have hdisjoint : List.Disjoint (a.children i) (a.held i) := by
    intro j hj hj'
    obtain ⟨c, hc, hj'⟩ := exists_of_mem_held hj'
    exact h.disjoint_children (h.ne_of_contents? hc) hj hj'
  unfold inner
  split
  · exact (h.nodup i).append (h.nodup_held i) hdisjoint
  · exact List.nodup_nil

theorem not_mem_inner_self (h : a.IsForest) (i : Nat) : i ∉ a.inner i := by
  intro hi
  obtain ⟨height, -, hlower⟩ := h.bounded
  exact Nat.lt_irrefl _ (hlower i i hi)

/-- An element has a node as a child, or a template holds it. -/
theorem parent_of_mem_inner (h : a.IsForest) (hj : j ∈ a.inner i) :
    ((a.cell j).parent = some i ∧ (a.cell i).shape ≠ .root) ∨
      ∃ c, a.contents? i = some c ∧ (a.cell j).parent = some c := by
  obtain ⟨⟨name, attrs, contents, hshape⟩, hj | hj⟩ := mem_inner_iff.1 hj
  · exact .inl ⟨h.parent hj, by simp [hshape]⟩
  · obtain ⟨c, hc, hj⟩ := exists_of_mem_held hj
    exact .inr ⟨c, hc, h.parent hj⟩

/-- A node stands in one other node only. -/
theorem unique_of_mem_inner {i' : Nat} (h : a.IsForest) (hj : j ∈ a.inner i) (hj' : j ∈ a.inner i') : i = i' := by
  obtain ⟨hparent, hshape⟩ | ⟨c, hc, hparent⟩ := h.parent_of_mem_inner hj <;>
    obtain ⟨hparent', hshape'⟩ | ⟨c', hc', hparent'⟩ := h.parent_of_mem_inner hj' <;>
    cases hparent.symm.trans hparent'
  · rfl
  · exact absurd (h.root hc').1 hshape
  · exact absurd (h.root hc).1 hshape'
  · exact h.unique hc hc'

/-- What the document has in it stands in no other node. -/
theorem not_mem_inner_of_top (h : a.IsForest) (hi : i ∈ a.children document) (k : Nat) : i ∉ a.inner k := by
  intro hk
  obtain ⟨hparent, hshape⟩ | ⟨c, hc, hparent⟩ := h.parent_of_mem_inner hk <;> cases (h.parent hi).symm.trans hparent
  · exact hshape h.top
  · exact (h.root hc).2 rfl

/-- The nodes of a page are trees by what stands in them. -/
theorem exists_isTreelike (h : a.IsForest) : ∃ height : Nat → Nat, (∀ i, height i ≤ a.size) ∧ IsTreelike a.inner height := by
  obtain ⟨height, hsize, hlower⟩ := h.bounded
  exact ⟨height, hsize, fun {i j} hj => hlower i j hj, fun {i i' j} => h.unique_of_mem_inner, h.nodup_inner⟩

/-- No node of a page is a root. -/
theorem shape_ne_root_of_inPage (h : a.IsForest) (hi : a.InPage i) : (a.cell i).shape ≠ .root := by
  cases hi with
  | top hi => exact h.node hi
  | child _ hi => exact h.node hi
  | held _ hi =>
    obtain ⟨c, -, hi⟩ := exists_of_mem_held hi
    exact h.node hi

/-- The nodes of a page are the nodes that stand in what the document has in it. -/
theorem inPage_iff (h : a.IsForest) : a.InPage j ↔ ∃ i ∈ a.children document, StandsIn a.inner j i := by
  constructor
  · intro hj
    induction hj with
    | @top i hi => exact ⟨i, hi, .refl⟩
    | @child i j hi hj ih =>
      obtain ⟨k, hk, hin⟩ := ih
      have hshape := (h.inside hj).resolve_left (h.shape_ne_root_of_inPage hi)
      exact ⟨k, hk, .head (mem_inner_iff.2 ⟨hshape, .inl hj⟩) hin⟩
    | @held i j hi hj ih =>
      obtain ⟨k, hk, hin⟩ := ih
      obtain ⟨c, hc, -⟩ := exists_of_mem_held hj
      obtain ⟨name, attrs, hshape⟩ := exists_of_contents?_eq_some hc
      exact ⟨k, hk, .head (mem_inner_iff.2 ⟨⟨name, attrs, _, hshape⟩, .inr hj⟩) hin⟩
  · rintro ⟨i, hi, hin⟩
    induction hin using Relation.ReflTransGen.head_induction_on with
    | refl => exact .top hi
    | head hj _ ih =>
      obtain ⟨-, hj | hj⟩ := mem_inner_iff.1 hj
      · exact .child ih hj
      · exact .held ih hj

/-- The visit of a page comes to each of its nodes, and to nothing else. -/
theorem mem_visits_iff (h : a.IsForest) : i ∈ a.visits ↔ a.InPage i := by
  obtain ⟨height, hsize, htrees⟩ := h.exists_isTreelike
  have hdepth : ∀ k ∈ a.children document, height k < a.size + 1 := by
    intro k _
    exact Nat.lt_succ_of_le (hsize k)
  rw [visits, htrees.mem_preorder_iff hdepth, h.inPage_iff]

/-- The visit of a page comes to no node twice. -/
theorem nodup_visits (h : a.IsForest) : a.visits.Nodup := by
  obtain ⟨height, -, htrees⟩ := h.exists_isTreelike
  refine htrees.nodup_preorder (h.nodup document) ?_
  intro i hi _ _ k hk
  exact absurd hk (h.not_mem_inner_of_top hi k)

end IsForest

/-! ## Moving the children of a node -/

/-- What the cells are after a node was put last in another one. -/
theorem cell_append (hj : j < a.size) (ht : target < a.size) (hparent : (a.cell j).parent = some source) (hsource : j ≠ source)
    (htarget : j ≠ target) (hne : target ≠ source) (i : Nat) :
    (a.append target j).cell i =
      if i = j then { a.cell j with parent := some target }
      else if i = target then { a.cell target with lastFirst := j :: (a.cell target).lastFirst }
      else if i = source then { a.cell source with lastFirst := (a.cell source).lastFirst.filter (· != j) }
      else a.cell i := by
  rw [append, detach, hparent]
  simp only [cell_change, size_change]
  by_cases hij : i = j
  · subst hij
    simp [hj, hsource.symm, htarget.symm]
  · by_cases hit : i = target
    · subst hit
      simp [ht, hij, Ne.symm hij, hne.symm]
    · by_cases his : i = source
      · subst his
        by_cases hs : i < a.size
        · simp [hs, hij, Ne.symm hij, hit, Ne.symm hit]
        · simp [hs, hij, Ne.symm hij, hit, Ne.symm hit, cell_of_size_le (Nat.le_of_not_lt hs)]
      · simp [hij, Ne.symm hij, hit, Ne.symm hit, his, Ne.symm his]

/-- What it does to an arena that some of the children of one node become the last ones of another. -/
structure Moves (source target : Nat) (nodes : List Nat) (a a' : Arena) : Prop where
  size : a'.size = a.size
  shape : ∀ i, (a'.cell i).shape = (a.cell i).shape
  parent : ∀ i, (a'.cell i).parent = if i ∈ nodes then some target else (a.cell i).parent
  gained : a'.children target = a.children target ++ nodes
  lost : a'.children source = (a.children source).filter (· ∉ nodes)
  others : ∀ i, i ≠ source → i ≠ target → a'.children i = a.children i

namespace Moves

theorem nil (source target : Nat) (a : Arena) : Moves source target [] a a :=
  ⟨rfl, fun _ => rfl, fun _ => by simp, by simp, by simp, fun _ _ _ => rfl⟩

theorem append (h : Moves source target nodes a a') (h' : Moves source target more a' a'') :
    Moves source target (nodes ++ more) a a'' where
  size := h'.size.trans h.size
  shape i := (h'.shape i).trans (h.shape i)
  parent i := by
    rw [h'.parent, h.parent]
    by_cases hi : i ∈ more <;> simp [hi]
  gained := by rw [h'.gained, h.gained, List.append_assoc]
  lost := by
    rw [h'.lost, h.lost, List.filter_filter]
    exact List.filter_congr fun i _ => by simp [Bool.and_comm]
  others i hs ht := (h'.others i hs ht).trans (h.others i hs ht)

/-- Putting a node last in another one moves it there. -/
theorem of_append (hj : j < a.size) (ht : target < a.size) (hparent : (a.cell j).parent = some source) (hsource : j ≠ source)
    (htarget : j ≠ target) (hne : target ≠ source) : Moves source target [j] a (a.append target j) := by
  have hcell := cell_append hj ht hparent hsource htarget hne
  constructor
  case size => simp only [Arena.append, detach, hparent, size_change]
  case shape =>
    intro i
    rw [hcell]
    split_ifs with hij hit his
    · rw [hij]
    · rw [hit]
    · rw [his]
    · rfl
  case parent =>
    intro i
    rw [hcell]
    split_ifs with hij hit his <;> simp_all
  case gained =>
    rw [children, hcell, if_neg htarget.symm, if_pos rfl, Cell.children, List.reverse_cons]
    rfl
  case lost =>
    rw [children, hcell, if_neg hsource.symm, if_neg hne.symm, if_pos rfl, Cell.children, ← List.filter_reverse]
    refine List.filter_congr ?_
    intro i _
    by_cases hij : i = j <;> simp [hij]
  case others =>
    intro i his hit
    by_cases hij : i = j
    · subst hij
      rw [children, hcell, if_pos rfl]
      rfl
    · rw [children, hcell, if_neg hij, if_neg hit, if_neg his]
      rfl

/-- Putting nodes last in another one, one after the other, moves them there. -/
theorem of_foldl (hnodup : nodes.Nodup) (hne : target ≠ source) (ht : target < a.size)
    (hnodes : ∀ j ∈ nodes, j < a.size ∧ (a.cell j).parent = some source ∧ j ≠ source ∧ j ≠ target) :
    Moves source target nodes a (nodes.foldl (fun a j => a.append target j) a) := by
  induction nodes generalizing a with
  | nil => exact nil source target a
  | cons j nodes ih =>
    obtain ⟨hj, hnodup⟩ := List.nodup_cons.1 hnodup
    obtain ⟨hsize, hparent, hsource, htarget⟩ := hnodes j List.mem_cons_self
    have hfirst := of_append hsize ht hparent hsource htarget hne
    have hkept : ∀ i ∈ nodes,
        i < (a.append target j).size ∧ ((a.append target j).cell i).parent = some source ∧ i ≠ source ∧ i ≠ target := by
      intro i hi
      obtain ⟨hsize, hparent, hsource, htarget⟩ := hnodes i (List.mem_cons_of_mem _ hi)
      have hij : i ∉ [j] := by
        rw [List.mem_singleton]
        rintro rfl
        exact hj hi
      rw [hfirst.size, hfirst.parent, if_neg hij]
      exact ⟨hsize, hparent, hsource, htarget⟩
    have hmore := ih hnodup (hfirst.size ▸ ht) hkept
    exact hfirst.append hmore

end Moves

/-- Moving what a template holds moves it into the template. -/
theorem IsForest.moves (h : a.IsForest) (hc : a.contents? t = some c) : Moves c t (a.children c) a (a.moveChildren c t) := by
  refine Moves.of_foldl (h.nodup c) (h.ne_of_contents? hc) (lt_size_of_contents? hc) ?_
  intro j hj
  obtain ⟨name, attrs, hshape⟩ := exists_of_contents?_eq_some hc
  have hinner : j ∈ a.inner t := by
    rw [inner_of_element hshape, held_of_contents? hc]
    exact List.mem_append_right _ hj
  refine ⟨lt_size_of_shape (h.node hj), h.parent hj, ?_, ?_⟩
  · rintro rfl
    exact h.node hj (h.root hc).1
  · rintro rfl
    exact h.not_mem_inner_self j hinner

/-! ## What a move keeps -/

/-- Whether the same stands in each node and in the document, whatever of it are children. -/
structure SameInside (a a' : Arena) : Prop where
  size : a'.size = a.size
  shape : ∀ i, (a'.cell i).shape = (a.cell i).shape
  inner : ∀ i, a'.inner i = a.inner i
  top : a'.children document = a.children document

namespace SameInside

theorem refl (a : Arena) : SameInside a a := ⟨rfl, fun _ => rfl, fun _ => rfl, rfl⟩

theorem trans (h : SameInside a a') (h' : SameInside a' a'') : SameInside a a'' where
  size := h'.size.trans h.size
  shape i := (h'.shape i).trans (h.shape i)
  inner i := (h'.inner i).trans (h.inner i)
  top := h'.top.trans h.top

theorem visits_eq (h : SameInside a a') : a'.visits = a.visits := by
  rw [visits, visits, h.size, h.top, funext h.inner]

/-- Nodes that have the same in them are shown as the same trees. -/
theorem shown_eq (h : SameInside a a') (depth : Nat) (nodes : List Nat) : a'.shown depth nodes = a.shown depth nodes := by
  induction depth generalizing nodes with
  | zero => rfl
  | succ depth ih =>
    induction nodes with
    | nil => rw [shown_nil, shown_nil]
    | cons i nodes ihNodes =>
      rw [shown_cons, shown_cons a, ihNodes]
      congr 1
      have hshape := h.shape i
      cases hi : (a.cell i).shape with
      | element name attrs contents => rw [shown_of_element (hshape.trans hi), shown_of_element hi, h.inner, ih]
      | _ =>
        rw [hi] at hshape
        simp [shown, trees, hi, hshape]

/-- A page whose nodes have the same in them is the same document. -/
theorem inlinedAll_toParsed (h : SameInside a a') : ParsedNode.inlinedAll a'.toParsed = ParsedNode.inlinedAll a.toParsed := by
  change a'.shown (a'.size + 1) (a'.children document) = a.shown (a.size + 1) (a.children document)
  rw [h.size, h.top, h.shown_eq]

end SameInside

theorem contents?_congr (h : (a'.cell i).shape = (a.cell i).shape) : a'.contents? i = a.contents? i := by
  rw [contents?, contents?, h]

/-- After its move a template holds nothing. -/
theorem Moves.held_eq_nil (hmove : Moves c t (a.children c) a a') (hc : a.contents? t = some c) : a'.held t = [] := by
  rw [held_of_contents? ((contents?_congr (hmove.shape t)).trans hc), hmove.lost]
  simp

/-- After a move a child is one of the same node as before, or the template held it. -/
theorem Moves.mem_children (hmove : Moves c t (a.children c) a a') (hj : j ∈ a'.children i) :
    (j ∈ a.children i ∧ i ≠ c) ∨ (i = t ∧ j ∈ a.children c) := by
  by_cases hic : i = c
  · subst hic
    rw [hmove.lost] at hj
    simp at hj
  · by_cases hit : i = t
    · subst hit
      rw [hmove.gained, List.mem_append] at hj
      exact hj.imp (⟨·, hic⟩) (⟨rfl, ·⟩)
    · rw [hmove.others i hic hit] at hj
      exact .inl ⟨hj, hic⟩

namespace IsForest

/-- A move leaves what other templates hold. -/
theorem held_of_moves (h : a.IsForest) (hc : a.contents? t = some c) (hmove : Moves c t (a.children c) a a') (hi : i ≠ t) :
    a'.held i = a.held i := by
  have hcontents : a'.contents? i = a.contents? i := contents?_congr (hmove.shape i)
  unfold held
  rw [hcontents]
  cases hi' : a.contents? i with
  | none => rfl
  | some c' =>
    refine hmove.others c' ?_ ?_
    · rintro rfl
      exact hi (h.unique hi' hc)
    · rintro rfl
      exact shape_ne_root_of_contents? hc (h.root hi').1

/-- A move keeps what stands in the nodes. -/
theorem sameInside_of_moves (h : a.IsForest) (hc : a.contents? t = some c) (hmove : Moves c t (a.children c) a a') :
    SameInside a a' := by
  obtain ⟨hroot, hdocument⟩ := h.root hc
  have htop : document ≠ t := by
    rintro rfl
    exact shape_ne_root_of_contents? hc h.top
  have hinner : ∀ i, a'.inner i = a.inner i := by
    intro i
    unfold Arena.inner
    rw [hmove.shape]
    split
    · next name attrs contents hi =>
      by_cases hit : i = t
      · -- the template: what it held is at the end of its children now
        subst hit
        rw [hmove.held_eq_nil hc, hmove.gained, held_of_contents? hc, List.append_nil]
      · have hic : i ≠ c := by
          rintro rfl
          simp [hi] at hroot
        rw [h.held_of_moves hc hmove hit, hmove.others i hic hit]
    · rfl
  exact ⟨hmove.size, hmove.shape, hinner, hmove.others document hdocument.symm htop⟩

/-- After a move the nodes are still what a page's nodes are like. -/
theorem of_moves (h : a.IsForest) (hc : a.contents? t = some c) (hmove : Moves c t (a.children c) a a') : a'.IsForest where
  top := by rw [hmove.shape, h.top]
  parent {i j} hj := by
    rw [hmove.parent]
    obtain ⟨hj, hic⟩ | ⟨rfl, hj⟩ := hmove.mem_children hj
    · have hnot : j ∉ a.children c := h.disjoint_children hic hj
      rw [if_neg hnot, h.parent hj]
    · rw [if_pos hj]
  node {i j} hj := by
    rw [hmove.shape]
    obtain ⟨hj, -⟩ | ⟨-, hj⟩ := hmove.mem_children hj
    · exact h.node hj
    · exact h.node hj
  nodup i := by
    by_cases hic : i = c
    · subst hic
      rw [hmove.lost]
      exact (h.nodup i).filter _
    · by_cases hit : i = t
      · subst hit
        rw [hmove.gained]
        exact (h.nodup i).append (h.nodup c) (h.disjoint_children hic)
      · rw [hmove.others i hic hit]
        exact h.nodup i
  inside {i j} hj := by
    refine .congr (hmove.shape i) ?_
    obtain ⟨hj, -⟩ | ⟨rfl, -⟩ := hmove.mem_children hj
    · exact h.inside hj
    · obtain ⟨name, attrs, hshape⟩ := exists_of_contents?_eq_some hc
      exact .inr ⟨name, attrs, _, hshape⟩
  root {t' c'} ht' := by
    rw [contents?_congr (hmove.shape t')] at ht'
    rw [hmove.shape]
    exact h.root ht'
  unique {t' t'' c'} ht' ht'' := by
    rw [contents?_congr (hmove.shape t')] at ht'
    rw [contents?_congr (hmove.shape t'')] at ht''
    exact h.unique ht' ht''
  bounded := by
    obtain ⟨height, hsize, hlower⟩ := h.bounded
    have hsame := h.sameInside_of_moves hc hmove
    refine ⟨height, ?_, ?_⟩
    · intro i
      rw [hmove.size]
      exact hsize i
    · intro i j hj
      rw [hsame.inner] at hj
      exact hlower i j hj

end IsForest

/-! ## Rounds -/

/-- The templates of a page that hold something, in order, each with the root of what it holds. Only what stands in children is
looked through. -/
def pending (a : Arena) : List (Nat × Nat) :=
  a.order.filterMap fun t => ((a.contents? t).filter fun c => !(a.children c).isEmpty).map fun c => (t, c)

/-- One round: each of the templates gets what it holds as its last children. -/
def round (a : Arena) : Arena := a.pending.foldl (fun a x => a.moveChildren x.2 x.1) a

/-- The page after rounds until no template is left that holds something, where there are at most so many rounds and a last look. -/
def inlineContents : Nat → Arena → Option Arena
  | 0, _ => none
  | fuel + 1, a => if a.pending.isEmpty then some a else inlineContents fuel a.round

theorem mem_pending_iff : (t, c) ∈ a.pending ↔ t ∈ a.order ∧ a.contents? t = some c ∧ a.children c ≠ [] := by
  simp only [pending, List.mem_filterMap, Option.map_eq_some_iff, Option.filter_eq_some_iff, Prod.mk.injEq]
  constructor
  · rintro ⟨i, hi, c', ⟨hc', hchildren⟩, rfl, rfl⟩
    exact ⟨hi, hc', by simpa using hchildren⟩
  · rintro ⟨ht, hc, hchildren⟩
    exact ⟨t, ht, c, ⟨hc, by simpa using hchildren⟩, rfl, rfl⟩

/-- Where nothing is left to be moved, no node of the page holds anything. -/
theorem held_of_pending_eq_nil (hpending : a.pending = []) (hi : i ∈ a.order) : a.held i = [] := by
  cases hc : a.contents? i with
  | none => rw [held, hc]
  | some c =>
    rw [held_of_contents? hc]
    by_contra hchildren
    exact absurd (mem_pending_iff.2 ⟨hi, hc, hchildren⟩) (hpending ▸ List.not_mem_nil)

/-- The templates that hold something, wherever they are. -/
def holders (a : Arena) : Finset Nat := (Finset.range a.size).filter fun i => a.held i ≠ []

theorem mem_holders_iff : i ∈ a.holders ↔ a.held i ≠ [] := by
  rw [holders, Finset.mem_filter, Finset.mem_range, and_iff_right_iff_imp]
  intro hheld
  obtain ⟨j, hj⟩ := List.exists_mem_of_ne_nil _ hheld
  obtain ⟨c, hc, -⟩ := exists_of_mem_held hj
  exact lt_size_of_contents? hc

namespace IsForest

/-- What moves of what templates hold keep and do. The templates that got what they held hold nothing any more, and no other one holds
something that held nothing. -/
theorem of_foldl_moveChildren {moves : List (Nat × Nat)} (h : a.IsForest) (hmoves : ∀ x ∈ moves, a.contents? x.1 = some x.2) :
    let a' := moves.foldl (fun a x => a.moveChildren x.2 x.1) a
    a'.IsForest ∧ SameInside a a' ∧ (∀ i, a.held i = [] → a'.held i = []) ∧ ∀ x ∈ moves, a'.held x.1 = [] := by
  induction moves generalizing a with
  | nil => exact ⟨h, .refl a, fun _ => id, fun _ hx => absurd hx List.not_mem_nil⟩
  | cons x moves ih =>
    have hc := hmoves x List.mem_cons_self
    have hmove := h.moves hc
    have hsame := h.sameInside_of_moves hc hmove
    have hheld : (a.moveChildren x.2 x.1).held x.1 = [] := hmove.held_eq_nil hc
    have hmoves' : ∀ y ∈ moves, (a.moveChildren x.2 x.1).contents? y.1 = some y.2 := by
      intro y hy
      rw [contents?_congr (hmove.shape y.1)]
      exact hmoves y (List.mem_cons_of_mem _ hy)
    obtain ⟨hforest, hrest, hkept, hempty⟩ := ih (h.of_moves hc hmove) hmoves'
    refine ⟨hforest, hsame.trans hrest, ?_, ?_⟩
    · intro i hi
      apply hkept
      by_cases hix : i = x.1
      · rw [hix, hheld]
      · rw [h.held_of_moves hc hmove hix, hi]
    · intro y hy
      rcases List.mem_cons.1 hy with rfl | hy
      · exact hkept _ hheld
      · exact hempty y hy

/-- What a round keeps and does. -/
theorem round_spec (h : a.IsForest) :
    a.round.IsForest ∧ SameInside a a.round ∧ (∀ i, a.held i = [] → a.round.held i = []) ∧
      ∀ x ∈ a.pending, a.round.held x.1 = [] :=
  h.of_foldl_moveChildren fun _ hx => (mem_pending_iff.1 hx).2.1

/-- A round in which something was moved leaves fewer templates that hold something. -/
theorem card_holders_round (h : a.IsForest) (hpending : a.pending ≠ []) : a.round.holders.card < a.holders.card := by
  obtain ⟨-, -, hkept, hempty⟩ := h.round_spec
  obtain ⟨⟨t, c⟩, hx⟩ := List.exists_mem_of_ne_nil _ hpending
  obtain ⟨-, hc, hchildren⟩ := mem_pending_iff.1 hx
  have hsubset : a.round.holders ⊆ a.holders := by
    intro i hi
    rw [mem_holders_iff] at hi ⊢
    exact mt (hkept i) hi
  refine Finset.card_lt_card ((Finset.ssubset_iff_of_subset hsubset).2 ⟨t, ?_, ?_⟩)
  · rw [mem_holders_iff, held_of_contents? hc]
    exact hchildren
  · rw [mem_holders_iff, not_not]
    exact hempty (t, c) hx

/-- There are enough rounds where there are more than templates that hold something. -/
theorem exists_inlineContents (h : a.IsForest) (hfuel : a.holders.card < fuel) :
    ∃ b, a.inlineContents fuel = some b ∧ b.IsForest ∧ SameInside a b ∧ b.pending = [] := by
  induction fuel generalizing a with
  | zero => exact absurd hfuel (Nat.not_lt_zero _)
  | succ fuel ih =>
    rw [inlineContents]
    by_cases hpending : a.pending = []
    · exact ⟨a, by simp [hpending], h, .refl a, hpending⟩
    · obtain ⟨hround, hsame, -, -⟩ := h.round_spec
      have hfewer := h.card_holders_round hpending
      obtain ⟨b, hb, hforest, hrest, hdone⟩ := ih hround (by omega)
      exact ⟨b, by simp [hpending, hb], hforest, hsame.trans hrest, hdone⟩

/-! ## After the last round -/

/-- Where no node of the page holds anything, the visit of what stands in its nodes is that of their children. -/
theorem order_eq_visits (h : a.IsForest) (hheld : ∀ i ∈ a.order, a.held i = []) : a.order = a.visits := by
  refine preorder_congr ?_
  intro i hi
  have hshape : (a.cell i).shape ≠ .root := by
    obtain ⟨k, hk, hin⟩ := exists_of_mem_preorder hi
    rcases hin.cases_head with rfl | ⟨m, hm, -⟩
    · exact h.node hk
    · exact h.node hm
  have hnil := hheld i hi
  unfold Arena.inner
  split
  · rw [hnil, List.append_nil]
  · next hleaf =>
    rw [List.eq_nil_iff_forall_not_mem]
    intro j hj
    rcases h.inside hj with hroot | ⟨name, attrs, contents, helement⟩
    · exact hshape hroot
    · exact hleaf name attrs contents helement

end IsForest

end Arena

end LocalePages
