import LocalePages.Markup.Construction.Arena
import Mathlib.Data.List.Basic

/-!
# Planting trees

Where nothing of a page has to be moved about, its nodes come into the arena in the order in which they are written, each at the end
of the node it is in (`Arena.plant`), and so do whole trees (`Arena.plantAll`). Planting changes nothing but the children of that
one node (`Arena.Keeps`), and the trees that were planted are those that are read off the arena (`Arena.shown_plantAll`,
`Arena.inlinedAll_toParsed`).
-/

namespace LocalePages

namespace Node

/-- Whether a node is text. -/
def isText : Node → Bool
  | .text _ => true
  | _ => false

/-- What a node is, apart from its children. -/
def shape : Node → Shape
  | .element name attrs _ => .element name attrs none
  | .text t => .text t.reverse
  | .comment t => .comment t
  | .doctype name => .doctype name

/-- The children of a node. -/
def children : Node → List Node
  | .element _ _ children => children
  | _ => []

end Node

namespace Arena

variable {a a' a'' b : Arena} {p i j depth : Nat} {s : Shape}

/-! ## Cells -/

@[simp] theorem size_change (a : Arena) (i : Nat) (f : Cell → Cell) : (a.change i f).size = a.size := Array.size_setIfInBounds

/-- What is at a place after a change. -/
theorem cell_change (a : Arena) (i j : Nat) (f : Cell → Cell) :
    (a.change i f).cell j = if i = j ∧ i < a.size then f (a.cell i) else a.cell j := by
  simp only [change, cell, Array.getD_eq_getD_getElem?, Array.getElem?_setIfInBounds]
  by_cases hij : i = j
  · subst hij
    by_cases hi : i < a.size <;> simp [hi]
  · simp [hij]

/-- There is nothing but a root beyond the end of an arena. -/
theorem cell_of_size_le (h : a.size ≤ i) : a.cell i = ⟨.root, none, []⟩ := by
  simp [cell, Array.getD_eq_getD_getElem?, h]

theorem cell_push (a : Arena) (c : Cell) (i : Nat) : Arena.cell (a.push c) i = if i = a.size then c else a.cell i := by
  simp only [cell, Array.getD_eq_getD_getElem?, Array.getElem?_push]
  split <;> rfl

/-- Arenas with the same nodes are the same. -/
theorem ext_cell (hsize : a.size = b.size) (h : ∀ i < a.size, a.cell i = b.cell i) : a = b := by
  refine Array.ext hsize fun i ha hb => ?_
  have hcell := h i ha
  simp only [cell, Array.getD_eq_getD_getElem?, Array.getElem?_eq_getElem ha, Array.getElem?_eq_getElem hb,
    Option.getD_some] at hcell
  exact hcell

/-! ## New nodes -/

/-- The arena with a new node at the end of another one. -/
def plant (a : Arena) (p : Nat) (s : Shape) : Arena := (a.add s).1.append p a.size

@[simp] theorem size_plant (a : Arena) (p : Nat) (s : Shape) : (a.plant p s).size = a.size + 1 := by
  simp only [plant, add, append, detach, cell_push, if_pos, size_change, Array.size_push]

/-- What is at a place after planting. -/
theorem cell_plant (hp : p < a.size) (i : Nat) :
    (a.plant p s).cell i =
      if i = a.size then ⟨s, some p, []⟩
      else if i = p then { a.cell p with lastFirst := a.size :: (a.cell p).lastFirst }
      else a.cell i := by
  have hnew : Arena.cell (a.push ⟨s, none, []⟩) a.size = ⟨s, none, []⟩ := by rw [cell_push, if_pos rfl]
  have hpne : p ≠ a.size := Nat.ne_of_lt hp
  have hdetach : detach (a.push ⟨s, none, []⟩) a.size = a.push ⟨s, none, []⟩ := by rw [detach, hnew]
  rw [plant, add, append, hdetach, cell_change, cell_change, cell_change, cell_push, cell_push, cell_push, size_change,
    Array.size_push]
  by_cases hi : i = a.size
  · subst hi
    simp [hpne]
  · by_cases hip : i = p
    · subst hip
      simp [hi, Ne.symm hi, Nat.lt_succ_of_lt hp]
    · simp [hi, hip, Ne.symm hi, Ne.symm hip]

/-- What planting in one node, once or more often, leaves as it is: everything but the children of that node. -/
structure Keeps (p : Nat) (a a' : Arena) : Prop where
  size : a.size ≤ a'.size
  cell : ∀ i < a.size, i ≠ p → a'.cell i = a.cell i
  shape : (a'.cell p).shape = (a.cell p).shape

namespace Keeps

theorem refl (p : Nat) (a : Arena) : Keeps p a a := ⟨Nat.le_refl _, fun _ _ _ => rfl, rfl⟩

theorem trans (h : Keeps p a a') (h' : Keeps p a' a'') : Keeps p a a'' where
  size := Nat.le_trans h.size h'.size
  cell i hi hip := (h'.cell i (Nat.lt_of_lt_of_le hi h.size) hip).trans (h.cell i hi hip)
  shape := h'.shape.trans h.shape

/-- The nodes of an arena stay what they are. -/
theorem shape_eq (h : Keeps p a a') (hi : i < a.size) : (a'.cell i).shape = (a.cell i).shape := by
  by_cases hip : i = p
  · rw [hip]
    exact h.shape
  · rw [h.cell i hi hip]

end Keeps

theorem keeps_plant (hp : p < a.size) (s : Shape) : Keeps p a (a.plant p s) where
  size := by simp
  cell i hi hip := by rw [cell_plant hp, if_neg (Nat.ne_of_lt hi), if_neg hip]
  shape := by rw [cell_plant hp, if_neg (Nat.ne_of_lt hp), if_pos rfl]

/-- What is planted in a new node leaves the nodes from before. -/
theorem Keeps.of_new (h : Keeps p a a') (hi : a.size ≤ i) (h' : Keeps i a' a'') (hp : p < a.size) : Keeps p a a'' where
  size := Nat.le_trans h.size h'.size
  cell j hj hjp := (h'.cell j (Nat.lt_of_lt_of_le hj h.size) (by omega)).trans (h.cell j hj hjp)
  shape := (congrArg Cell.shape (h'.cell p (Nat.lt_of_lt_of_le hp h.size) (by omega))).trans h.shape

/-! ## Text -/

/-- Whether the last of the children of a node is text. -/
def endsInText (a : Arena) (p : Nat) : Bool := (a.cell p).lastFirst.head?.any a.isText

/-- A new node has nothing in it. -/
theorem endsInText_plant (hp : p < a.size) (s : Shape) : (a.plant p s).endsInText a.size = false := by
  rw [endsInText, cell_plant hp, if_pos rfl]
  rfl

/-- Text where no text is before it is a node of its own. -/
theorem appendText_of_endsInText (h : a.endsInText p = false) (t : Text) : a.appendText p t = a.plant p (.text t.reverse) := by
  have hnone : (a.cell p).lastFirst.head?.filter a.isText = none := by
    unfold endsInText at h
    cases hlast : (a.cell p).lastFirst.head? with
    | none => rfl
    | some i =>
      rw [hlast] at h
      exact Option.filter_eq_none_iff.2 fun j hj => by
        cases hj
        simpa using h
  rw [appendText, hnone]
  rfl

/-- Text after text joins it. -/
theorem appendText_plant (hp : p < a.size) (r t : Text) :
    (a.plant p (.text r)).appendText p t = a.plant p (.text (t.reverse ++ r)) := by
  have hpne : p ≠ a.size := Nat.ne_of_lt hp
  have hlast : ((a.plant p (.text r)).cell p).lastFirst = a.size :: (a.cell p).lastFirst := by
    rw [cell_plant hp, if_neg hpne, if_pos rfl]
  have htext : (a.plant p (.text r)).isText a.size = true := by rw [isText, cell_plant hp, if_pos rfl]
  have hfound : ((a.plant p (.text r)).cell p).lastFirst.head?.filter (a.plant p (.text r)).isText = some a.size := by
    rw [hlast, List.head?_cons, Option.filter_some, if_pos htext]
  rw [appendText, hfound]
  refine ext_cell (by simp [lengthen]) fun i hi => ?_
  simp only [lengthen]
  rw [cell_change, cell_plant hp, cell_plant hp, cell_plant hp, if_pos rfl]
  by_cases hia : i = a.size
  · subst hia
    simp [List.reverseAux_eq]
  · simp [hia, Ne.symm hia]

/-! ## Trees -/

mutual

/-- The arena with a tree at the end of a node. -/
def plantNode (a : Arena) (p : Nat) : Node → Arena
  | .element name attrs children => plantAll (a.plant p (.element name attrs none)) a.size children
  | .text t => a.plant p (.text t.reverse)
  | .comment t => a.plant p (.comment t)
  | .doctype name => a.plant p (.doctype name)

/-- The arena with trees, one after the other, at the end of a node. -/
def plantAll (a : Arena) (p : Nat) : List Node → Arena
  | [] => a
  | n :: rest => plantAll (a.plantNode p n) p rest

end

/-- A tree is planted as a new node with the trees that are in it. -/
theorem plantNode_eq (a : Arena) (p : Nat) (n : Node) :
    a.plantNode p n = (a.plant p n.shape).plantAll a.size n.children := by
  cases n <;> rfl

mutual

/-- Planting a tree leaves everything else as it is. -/
theorem keeps_plantNode : (n : Node) → (a : Arena) → (p : Nat) → p < a.size → Keeps p a (a.plantNode p n)
  | .element _ _ children, a, _, hp =>
    (keeps_plant hp _).of_new (Nat.le_refl _) (keeps_plantAll children _ a.size (by simp)) hp
  | .text _, _, _, hp => keeps_plant hp _
  | .comment _, _, _, hp => keeps_plant hp _
  | .doctype _, _, _, hp => keeps_plant hp _

/-- Planting trees leaves everything else as it is. -/
theorem keeps_plantAll : (ns : List Node) → (a : Arena) → (p : Nat) → p < a.size → Keeps p a (a.plantAll p ns)
  | [], a, p, _ => .refl p a
  | n :: rest, a, p, hp =>
    have h := keeps_plantNode n a p hp
    h.trans (keeps_plantAll rest _ p (Nat.lt_of_lt_of_le hp h.size))

end

/-- A tree is planted last, in a new node. -/
theorem lastFirst_plantNode (hp : p < a.size) (n : Node) :
    ((a.plantNode p n).cell p).lastFirst = a.size :: (a.cell p).lastFirst := by
  have hkeeps := keeps_plantAll n.children (a.plant p n.shape) a.size (by simp)
  rw [plantNode_eq, hkeeps.cell p (by simp; omega) (Nat.ne_of_lt hp), cell_plant hp, if_neg (Nat.ne_of_lt hp), if_pos rfl]

/-- What is in the new node. -/
theorem shape_plantNode (hp : p < a.size) (n : Node) : ((a.plantNode p n).cell a.size).shape = n.shape := by
  have hkeeps := keeps_plantAll n.children (a.plant p n.shape) a.size (by simp)
  rw [plantNode_eq, hkeeps.shape, cell_plant hp, if_pos rfl]

/-! ## Reading trees off an arena -/

theorem inlinedAll_append (ms ns : List ParsedNode) :
    ParsedNode.inlinedAll (ms ++ ns) = ParsedNode.inlinedAll ms ++ ParsedNode.inlinedAll ns := by
  induction ms with
  | nil => rfl
  | cons m ms ih => rw [List.cons_append, ParsedNode.inlinedAll, ParsedNode.inlinedAll, ih, List.cons_append]

theorem trees_append (a : Arena) (depth : Nat) (is js : List Nat) :
    a.trees depth (is ++ js) = a.trees depth is ++ a.trees depth js := by
  cases depth with
  | zero => rfl
  | succ depth => rw [trees, trees, trees, List.filterMap_append]

/-- What an arena shows at some places, with its templates' contents in place. -/
def shown (a : Arena) (depth : Nat) (places : List Nat) : List Node := ParsedNode.inlinedAll (a.trees depth places)

theorem shown_cons (a : Arena) (depth i : Nat) (is : List Nat) :
    a.shown depth (i :: is) = a.shown depth [i] ++ a.shown depth is := by
  rw [shown, shown, shown, ← List.singleton_append, trees_append, inlinedAll_append]

theorem shown_nil (a : Arena) (depth : Nat) : a.shown depth [] = [] := by
  cases depth <;> rfl

/-- What an arena shows at a place that has an element. -/
theorem shown_element {name : ElementName} {attrs : Attrs} (h : (a.cell i).shape = .element name attrs none) :
    a.shown (depth + 1) [i] = [.element name attrs (a.shown depth (a.cell i).children)] := by
  rw [shown, trees]
  simp [h, ParsedNode.inlinedAll, ParsedNode.inlined, shown]

/-- What an arena shows at a place that has no element. -/
theorem shown_leaf {n : Node} (hleaf : ∀ name attrs children, n ≠ .element name attrs children)
    (h : (a.cell i).shape = n.shape) : a.shown (depth + 1) [i] = [n] := by
  rw [shown, trees]
  cases n with
  | element name attrs children => exact absurd rfl (hleaf name attrs children)
  | _ => simp [h, Node.shape, ParsedNode.inlinedAll, ParsedNode.inlined]

/-- Whether an arena has what another one has from a size on up to its end. -/
def Has (a'' : Arena) (size : Nat) (a' : Arena) : Prop := ∀ i, size ≤ i → i < a'.size → a''.cell i = a'.cell i

/-- An arena that has a new node shows it. -/
theorem shown_plant (hp : p < a.size) {n : Node} (hleaf : ∀ name attrs children, n ≠ .element name attrs children)
    (hhas : a''.Has a.size (a.plant p n.shape)) (hdepth : (a.plant p n.shape).size ≤ a.size + depth) :
    a''.shown depth [a.size] = [n] := by
  rw [size_plant] at hdepth
  obtain ⟨depth, rfl⟩ : ∃ d, depth = d + 1 := Nat.exists_eq_succ_of_ne_zero (by omega)
  refine shown_leaf hleaf ?_
  rw [hhas a.size (Nat.le_refl _) (by simp), cell_plant hp, if_pos rfl]

mutual

/-- An arena that has what was planted shows the tree. -/
theorem shown_plantNode : (n : Node) → (a : Arena) → (p : Nat) → p < a.size → (a'' : Arena) →
    a''.Has a.size (a.plantNode p n) → (depth : Nat) → (a.plantNode p n).size ≤ a.size + depth → a''.shown depth [a.size] = [n]
  | .element name attrs children, a, p, hp, a'', hhas, depth, hdepth => by
    have hkeeps := keeps_plantAll children (a.plant p (.element name attrs none)) a.size (by simp)
    have hsize := hkeeps.size
    rw [plantNode] at hhas hdepth
    rw [size_plant] at hsize
    obtain ⟨roots, hroots, hshown⟩ := shown_plantAll children (a.plant p (.element name attrs none)) a.size (by simp)
    have hcell := hhas a.size (Nat.le_refl _) (by omega)
    obtain ⟨depth, rfl⟩ : ∃ d, depth = d + 1 := Nat.exists_eq_succ_of_ne_zero (by omega)
    have hshape : (a''.cell a.size).shape = .element name attrs none := by
      rw [hcell, hkeeps.shape, cell_plant hp, if_pos rfl]
    have hchildren : (a''.cell a.size).children = roots := by
      rw [Cell.children, hcell, hroots, cell_plant hp, if_pos rfl, List.append_nil, List.reverse_reverse]
    rw [shown_element hshape, hchildren,
      hshown a'' (fun i hi hlt => hhas i (by simp at hi; omega) hlt) depth (by simp; omega)]
  | .text _, _, _, hp, _, hhas, _, hdepth => shown_plant hp (by simp) hhas hdepth
  | .comment _, _, _, hp, _, hhas, _, hdepth => shown_plant hp (by simp) hhas hdepth
  | .doctype _, _, _, hp, _, hhas, _, hdepth => shown_plant hp (by simp) hhas hdepth

/-- Trees are planted at places of their own, and an arena that has what was planted shows them there. -/
theorem shown_plantAll : (ns : List Node) → (a : Arena) → (p : Nat) → p < a.size →
    ∃ roots : List Nat, ((a.plantAll p ns).cell p).lastFirst = roots.reverse ++ (a.cell p).lastFirst ∧
      ∀ a'' : Arena, a''.Has a.size (a.plantAll p ns) → ∀ depth, (a.plantAll p ns).size ≤ a.size + depth →
        a''.shown depth roots = ns
  | [], a, p, _ => ⟨[], rfl, fun a'' _ depth _ => shown_nil a'' depth⟩
  | n :: rest, a, p, hp => by
    have hfirst := keeps_plantNode n a p hp
    have hp' := Nat.lt_of_lt_of_le hp hfirst.size
    have hmore := keeps_plantAll rest (a.plantNode p n) p hp'
    obtain ⟨roots, hroots, hshown⟩ := shown_plantAll rest (a.plantNode p n) p hp'
    refine ⟨a.size :: roots, ?_, fun a'' hhas depth hdepth => ?_⟩
    · rw [plantAll, hroots, lastFirst_plantNode hp]
      simp
    · rw [plantAll] at hhas hdepth
      have hsize := hmore.size
      have hhere : a''.Has a.size (a.plantNode p n) := fun i hi hlt => by
        rw [hhas i hi (by omega), hmore.cell i hlt (by omega)]
      rw [shown_cons, shown_plantNode n a p hp a'' hhere depth (by omega),
        hshown a'' (fun i hi hlt => hhas i (Nat.le_trans hfirst.size hi) hlt) depth (by have := hfirst.size; omega)]
      rfl

end

/-- The trees that were planted in an empty document are its nodes. -/
theorem inlinedAll_toParsed (ns : List Node) :
    ParsedNode.inlinedAll (Arena.empty.plantAll document ns).toParsed = ns := by
  obtain ⟨roots, hroots, hshown⟩ := shown_plantAll ns Arena.empty document (by decide)
  have hchildren : ((Arena.empty.plantAll document ns).cell document).children = roots := by
    rw [Cell.children, hroots]
    simp [Arena.empty, document, cell]
  have h := hshown _ (fun _ _ _ => rfl) ((Arena.empty.plantAll document ns).size + 1) (by omega)
  rw [shown] at h
  rw [toParsed, hchildren, h]

end Arena

end LocalePages
