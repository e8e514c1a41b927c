import LocalePages.Proofs.ContentRounds

/-!
# The contents of templates in a document

Every parsed page is read off some arena whose nodes are as those of a page are: its trees are planted in an empty document
(`Arena.plantParsedAll`), where the root of what an element holds comes right after the element. On each such arena the rounds that
move the contents of templates come to an end, and leave the document that the parsed page has by recursion
(`Arena.inlineContents_spec`).
-/

namespace LocalePages

/-! ## Trees without contents -/

mutual

/-- A node of a document as one of a parsed page in which nothing is held. -/
def Node.parsed : Node → ParsedNode
  | .element name attrs children => .element name attrs (parsedAll children) []
  | .text t => .text t
  | .comment t => .comment t
  | .doctype name => .doctype name

/-- Nodes of a document as nodes of a parsed page in which nothing is held. -/
def Node.parsedAll : List Node → List ParsedNode
  | [] => []
  | n :: rest => n.parsed :: parsedAll rest

end

theorem Node.parsedAll_append (ms ns : List Node) : parsedAll (ms ++ ns) = parsedAll ms ++ parsedAll ns := by
  induction ms with
  | nil => rfl
  | cons m ms ih => rw [List.cons_append, parsedAll, parsedAll, ih, List.cons_append]

namespace Arena

variable {a a' a'' : Arena} {p i j t c depth : Nat} {s : Shape} {nodes : List Nat}

/-- Nodes that hold nothing are read off as what they show. -/
theorem trees_eq_parsedAll (hheld : ∀ i ∈ preorder a.children depth nodes, a.held i = []) :
    a.trees depth nodes = Node.parsedAll (a.shown depth nodes) := by
  induction depth generalizing nodes with
  | zero => rfl
  | succ depth ih =>
    induction nodes with
    | nil => rw [shown_nil, trees, List.filterMap_nil, Node.parsedAll]
    | cons i nodes ihNodes =>
      rw [preorder_cons, List.forall_mem_append, List.forall_mem_cons] at hheld
      obtain ⟨⟨hnil, hbelow⟩, hrest⟩ := hheld
      have hchildren := ih hbelow
      rw [shown_cons, Node.parsedAll_append, ← ihNodes hrest, ← List.singleton_append, trees_append]
      congr 1
      cases hi : (a.cell i).shape with
      | element name attrs contents =>
        rw [trees_of_element hi, shown_of_element hi, inner_of_element hi, hnil, List.append_nil, trees_nil, Node.parsedAll,
          Node.parsed, ← hchildren, Node.parsedAll]
      | _ => simp [shown, trees, hi, ParsedNode.inlinedAll, ParsedNode.inlined, Node.parsedAll, Node.parsed]

/-! ## Planting what templates hold -/

/-- The arena with a new element at the end of a node, and with a root after it for what the element will hold. -/
def plantHolder (a : Arena) (p : Nat) (name : ElementName) (attrs : Attrs) : Arena :=
  ((a.plant p (.element name attrs (some (a.size + 1)))).add .root).1

mutual

/-- The arena with a parsed tree at the end of a node. -/
def plantParsed (a : Arena) (p : Nat) : ParsedNode → Arena
  | .element name attrs children contents =>
    plantParsedAll (plantParsedAll (a.plantHolder p name attrs) a.size children) (a.size + 1) contents
  | .text t => a.plant p (.text t.reverse)
  | .comment t => a.plant p (.comment t)
  | .doctype name => a.plant p (.doctype name)

/-- The arena with parsed trees, one after the other, at the end of a node. -/
def plantParsedAll (a : Arena) (p : Nat) : List ParsedNode → Arena
  | [] => a
  | n :: rest => plantParsedAll (a.plantParsed p n) p rest

end

@[simp] theorem size_plantHolder (a : Arena) (p : Nat) (name : ElementName) (attrs : Attrs) :
    (a.plantHolder p name attrs).size = a.size + 2 := by
  simp [plantHolder, add]

/-- A new root is what is beyond the end of the arena anyway. -/
theorem cell_add_root (a : Arena) (i : Nat) : (a.add .root).1.cell i = a.cell i := by
  rw [add, cell_push]
  split_ifs with hi
  · rw [cell_of_size_le (Nat.le_of_eq hi.symm)]
  · rfl

/-- The new element has nothing in it. -/
theorem cell_plantHolder_self (hp : p < a.size) (name : ElementName) (attrs : Attrs) :
    (a.plantHolder p name attrs).cell a.size = ⟨.element name attrs (some (a.size + 1)), some p, []⟩ := by
  rw [plantHolder, cell_add_root, cell_plant hp, if_pos rfl]

/-- The new element holds nothing. -/
theorem cell_plantHolder_root (a : Arena) (p : Nat) (name : ElementName) (attrs : Attrs) :
    (a.plantHolder p name attrs).cell (a.size + 1) = ⟨.root, none, []⟩ := by
  rw [plantHolder, cell_add_root, cell_of_size_le (by simp)]

theorem keeps_plantHolder (hp : p < a.size) (name : ElementName) (attrs : Attrs) : Keeps p a (a.plantHolder p name attrs) := by
  have h := keeps_plant hp (.element name attrs (some (a.size + 1)))
  exact ⟨by simp, fun i hi hip => (cell_add_root _ i).trans (h.cell i hi hip),
    (congrArg Cell.shape (cell_add_root _ p)).trans h.shape⟩

mutual

/-- Planting a tree leaves everything else as it is. -/
theorem keeps_plantParsed : (n : ParsedNode) → (a : Arena) → (p : Nat) → p < a.size → Keeps p a (a.plantParsed p n)
  | .element name attrs children contents, a, p, hp => by
    have hchildren := keeps_plantParsedAll children (a.plantHolder p name attrs) a.size (by simp)
    have hsize := hchildren.size
    rw [size_plantHolder] at hsize
    have hcontents := keeps_plantParsedAll contents _ (a.size + 1) hsize
    exact ((keeps_plantHolder hp name attrs).of_new (Nat.le_refl _) hchildren hp).of_new (Nat.le_succ _) hcontents hp
  | .text _, _, _, hp => keeps_plant hp _
  | .comment _, _, _, hp => keeps_plant hp _
  | .doctype _, _, _, hp => keeps_plant hp _

/-- Planting trees leaves everything else as it is. -/
theorem keeps_plantParsedAll : (ns : List ParsedNode) → (a : Arena) → (p : Nat) → p < a.size → Keeps p a (a.plantParsedAll p ns)
  | [], a, p, _ => .refl p a
  | n :: rest, a, p, hp =>
    have h := keeps_plantParsed n a p hp
    h.trans (keeps_plantParsedAll rest _ p (Nat.lt_of_lt_of_le hp h.size))

end

/-! ## Planted trees are those of a page -/

/-- What arenas with planted trees are like: what stands in a node comes after it, and the root of what an element holds comes right
after the element. -/
structure Planted (a : Arena) : Prop where
  top : (a.cell document).shape = .root
  child : ∀ {i j}, j ∈ a.children i → i < j ∧ (a.cell j).parent = some i ∧ (a.cell j).shape ≠ .root
  nodup : ∀ i, (a.children i).Nodup
  inside : ∀ {i j}, j ∈ a.children i → a.MayHold i
  root : ∀ {t c}, a.contents? t = some c → c = t + 1 ∧ c < a.size ∧ (a.cell c).shape = .root

/-- The nodes of planted trees are as those of a page are. -/
theorem Planted.isForest (h : a.Planted) : a.IsForest where
  top := h.top
  parent hj := (h.child hj).2.1
  node hj := (h.child hj).2.2
  nodup := h.nodup
  inside := h.inside
  root hc := by
    obtain ⟨rfl, -, hroot⟩ := h.root hc
    exact ⟨hroot, Nat.succ_ne_zero _⟩
  unique hc hc' := Nat.succ_injective ((h.root hc).1.symm.trans (h.root hc').1)
  bounded := by
    refine ⟨fun i => a.size - i, fun i => Nat.sub_le _ _, fun i j hj => ?_⟩
    have hafter : i < j ∧ (a.cell j).shape ≠ .root := by
      obtain ⟨-, hj | hj⟩ := mem_inner_iff.1 hj
      · exact ⟨(h.child hj).1, (h.child hj).2.2⟩
      · obtain ⟨c, hc, hj⟩ := exists_of_mem_held hj
        obtain ⟨rfl, -, -⟩ := h.root hc
        exact ⟨Nat.lt_of_succ_lt (h.child hj).1, (h.child hj).2.2⟩
    have hsize := lt_size_of_shape hafter.2
    show a.size - j < a.size - i
    omega

theorem shape_plant (hp : p < a.size) (s : Shape) (i : Nat) :
    ((a.plant p s).cell i).shape = if i = a.size then s else (a.cell i).shape := by
  rw [cell_plant hp]
  split_ifs with hi hip
  · rfl
  · rw [hip]
  · rfl

theorem parent_plant (hp : p < a.size) (s : Shape) (i : Nat) :
    ((a.plant p s).cell i).parent = if i = a.size then some p else (a.cell i).parent := by
  rw [cell_plant hp]
  split_ifs with hi hip
  · rfl
  · rw [hip]
  · rfl

theorem children_plant (hp : p < a.size) (s : Shape) (i : Nat) :
    (a.plant p s).children i = a.children i ++ if i = p then [a.size] else [] := by
  rw [children, cell_plant hp]
  split_ifs with hi hip hip
  · omega
  · rw [children, cell_of_size_le (Nat.le_of_eq hi.symm)]
    rfl
  · rw [hip, Cell.children, List.reverse_cons]
    rfl
  · rw [List.append_nil]
    rfl

/-- After planting, a child is one from before or the new node. -/
theorem mem_children_plant (hp : p < a.size) (hj : j ∈ (a.plant p s).children i) :
    j ∈ a.children i ∨ (j = a.size ∧ i = p) := by
  rw [children_plant hp, List.mem_append] at hj
  refine hj.imp_right fun hj => ?_
  split_ifs at hj with hip
  · exact ⟨List.mem_singleton.1 hj, hip⟩
  · cases hj

theorem Planted.lt_size (h : a.Planted) (hj : j ∈ a.children i) : j < a.size := lt_size_of_shape (h.child hj).2.2

/-- A new node of a node that may have others in it. The root of what it holds, if there is one, comes right after it. -/
theorem Planted.of_cell (h : a.Planted) (hp : p < a.size) (hhold : a.MayHold p) (hs : s ≠ .root) (hsize : a.size < a'.size)
    (hroot : ∀ name attrs c, s = .element name attrs (some c) → c = a.size + 1 ∧ c < a'.size)
    (hcell : ∀ i, a'.cell i = (a.plant p s).cell i) : a'.Planted where
  top := by
    have hdocument : document < a.size := Nat.zero_lt_of_lt hp
    rw [hcell, shape_plant hp, if_neg (Nat.ne_of_lt hdocument), h.top]
  child {i j} hj := by
    rw [children, hcell] at hj
    rw [hcell, parent_plant hp, shape_plant hp]
    obtain hj | ⟨rfl, rfl⟩ := mem_children_plant hp hj
    · have hne := Nat.ne_of_lt (h.lt_size hj)
      rw [if_neg hne, if_neg hne]
      exact h.child hj
    · rw [if_pos rfl, if_pos rfl]
      exact ⟨hp, rfl, hs⟩
  nodup i := by
    have hnew : List.Disjoint (a.children i) (if i = p then [a.size] else []) := List.disjoint_left.2 fun j hj hj' => by
      split_ifs at hj'
      · exact absurd (h.lt_size hj) (by simp [List.mem_singleton.1 hj'])
      · cases hj'
    rw [children, hcell]
    change ((a.plant p s).children i).Nodup
    rw [children_plant hp]
    exact (h.nodup i).append (by split_ifs <;> simp) hnew
  inside {i j} hj := by
    rw [children, hcell] at hj
    have hi : i < a.size ∧ a.MayHold i := by
      obtain hj | ⟨-, rfl⟩ := mem_children_plant hp hj
      · exact ⟨Nat.lt_trans (h.child hj).1 (h.lt_size hj), h.inside hj⟩
      · exact ⟨hp, hhold⟩
    exact hi.2.congr (by rw [hcell, shape_plant hp, if_neg (Nat.ne_of_lt hi.1)])
  root {t c} hc := by
    obtain ⟨name, attrs, ht⟩ := exists_of_contents?_eq_some hc
    rw [hcell, shape_plant hp] at ht
    rw [hcell, shape_plant hp]
    split_ifs at ht with hnew
    · obtain ⟨rfl, hlt⟩ := hroot name attrs c ht
      rw [if_neg (Nat.succ_ne_self _), cell_of_size_le (Nat.le_succ _)]
      exact ⟨by rw [hnew], hlt, rfl⟩
    · obtain ⟨rfl, hlt, hshape⟩ := h.root (contents?_of_element ht)
      rw [if_neg (Nat.ne_of_lt hlt)]
      exact ⟨rfl, Nat.lt_trans hlt hsize, hshape⟩

/-- A new text, comment or document type. -/
theorem Planted.plant (h : a.Planted) (hp : p < a.size) (hhold : a.MayHold p) (hs : s ≠ .root)
    (hleaf : ∀ name attrs c, s ≠ .element name attrs (some c)) : (a.plant p s).Planted :=
  h.of_cell hp hhold hs (by simp) (fun name attrs c hc => absurd hc (hleaf name attrs c)) fun _ => rfl

theorem Planted.plantHolder (h : a.Planted) (hp : p < a.size) (hhold : a.MayHold p) (name : ElementName) (attrs : Attrs) :
    (a.plantHolder p name attrs).Planted :=
  h.of_cell hp hhold (s := .element name attrs (some (a.size + 1))) (by simp) (by simp) (by simp) (cell_add_root _)

/-- The new element may have others in it, and so may the root after it. -/
theorem mayHold_plantHolder (hp : p < a.size) (name : ElementName) (attrs : Attrs) :
    (a.plantHolder p name attrs).MayHold a.size ∧ (a.plantHolder p name attrs).MayHold (a.size + 1) := by
  constructor
  · exact .inr ⟨name, attrs, some (a.size + 1), by rw [cell_plantHolder_self hp]⟩
  · exact .inl (by rw [cell_plantHolder_root])

mutual

/-- Planting a tree keeps what arenas with planted trees are like. -/
theorem planted_plantParsed : (n : ParsedNode) → (a : Arena) → (p : Nat) → p < a.size → a.MayHold p → a.Planted →
    (a.plantParsed p n).Planted
  | .element name attrs children contents, a, p, hp, hhold, h => by
    obtain ⟨helement, hroot⟩ := mayHold_plantHolder hp name attrs
    have hkeeps := keeps_plantParsedAll children (a.plantHolder p name attrs) a.size (by simp)
    have hsize := hkeeps.size
    rw [size_plantHolder] at hsize
    have hchildren := planted_plantParsedAll children _ a.size (by simp) helement (h.plantHolder hp hhold name attrs)
    exact planted_plantParsedAll contents _ (a.size + 1) hsize (hroot.congr (hkeeps.shape_eq (by simp))) hchildren
  | .text _, _, _, hp, hhold, h => h.plant hp hhold (by simp) (by simp)
  | .comment _, _, _, hp, hhold, h => h.plant hp hhold (by simp) (by simp)
  | .doctype _, _, _, hp, hhold, h => h.plant hp hhold (by simp) (by simp)

/-- Planting trees keeps what arenas with planted trees are like. -/
theorem planted_plantParsedAll : (ns : List ParsedNode) → (a : Arena) → (p : Nat) → p < a.size → a.MayHold p → a.Planted →
    (a.plantParsedAll p ns).Planted
  | [], _, _, _, _, h => h
  | n :: rest, a, p, hp, hhold, h =>
    have hkeeps := keeps_plantParsed n a p hp
    planted_plantParsedAll rest _ p (Nat.lt_of_lt_of_le hp hkeeps.size) (hhold.congr (hkeeps.shape_eq hp))
      (planted_plantParsed n a p hp hhold h)

end

/-! ## Reading planted trees off -/

/-- A planted tree is the last one in its node, at a place of its own. -/
theorem lastFirst_plantParsed (hp : p < a.size) (n : ParsedNode) :
    ((a.plantParsed p n).cell p).lastFirst = a.size :: (a.cell p).lastFirst := by
  have hplant (s : Shape) : ((a.plant p s).cell p).lastFirst = a.size :: (a.cell p).lastFirst := by
    rw [cell_plant hp, if_neg (Nat.ne_of_lt hp), if_pos rfl]
  cases n with
  | element name attrs children contents =>
    have hchildren := keeps_plantParsedAll children (a.plantHolder p name attrs) a.size (by simp)
    have hsize := hchildren.size
    rw [size_plantHolder] at hsize
    have hcontents := keeps_plantParsedAll contents _ (a.size + 1) hsize
    rw [plantParsed, hcontents.cell p (by omega) (by omega), hchildren.cell p (by simp; omega) (Nat.ne_of_lt hp), plantHolder,
      cell_add_root, hplant]
  | _ => exact hplant _

/-- An arena that has a new node without others in it is read there as that node. -/
theorem trees_of_plant (hp : p < a.size) {n : ParsedNode}
    (hread : (a''.cell a.size).shape = s → ∀ depth, a''.trees (depth + 1) [a.size] = [n]) (hhas : a''.Has a.size (a.plant p s))
    (hdepth : (a.plant p s).size ≤ a.size + depth) : a''.trees depth [a.size] = [n] := by
  rw [size_plant] at hdepth
  obtain ⟨depth, rfl⟩ : ∃ d, depth = d + 1 := Nat.exists_eq_succ_of_ne_zero (by omega)
  refine hread ?_ depth
  rw [hhas a.size (Nat.le_refl _) (by simp), cell_plant hp, if_pos rfl]

mutual

/-- An arena that has what was planted is read there as the tree. -/
theorem trees_plantParsed : (n : ParsedNode) → (a : Arena) → (p : Nat) → p < a.size → (a'' : Arena) →
    a''.Has a.size (a.plantParsed p n) → (depth : Nat) → (a.plantParsed p n).size ≤ a.size + depth →
    a''.trees depth [a.size] = [n]
  | .element name attrs children contents, a, p, hp, a'', hhas, depth, hdepth => by
    have hkeeps := keeps_plantParsedAll children (a.plantHolder p name attrs) a.size (by simp)
    obtain ⟨roots, hroots, htrees⟩ := trees_plantParsedAll children (a.plantHolder p name attrs) a.size (by simp)
    have hsize := hkeeps.size
    rw [plantParsed] at hhas hdepth
    generalize (a.plantHolder p name attrs).plantParsedAll a.size children = a' at *
    rw [size_plantHolder] at hsize
    have hkeeps' := keeps_plantParsedAll contents a' (a.size + 1) hsize
    obtain ⟨roots', hroots', htrees'⟩ := trees_plantParsedAll contents a' (a.size + 1) hsize
    have hsize' := hkeeps'.size
    obtain ⟨depth, rfl⟩ : ∃ d, depth = d + 1 := Nat.exists_eq_succ_of_ne_zero (by omega)
    have hcell : a''.cell a.size = a'.cell a.size := by
      rw [hhas a.size (Nat.le_refl _) (by omega), hkeeps'.cell a.size (by omega) (Nat.ne_of_lt (Nat.lt_succ_self _))]
    have hshape : (a''.cell a.size).shape = .element name attrs (some (a.size + 1)) := by
      rw [hcell, hkeeps.shape, cell_plantHolder_self hp]
    have hchildren : a''.children a.size = roots := by
      rw [Arena.children, hcell, Cell.children, hroots, cell_plantHolder_self hp, List.append_nil, List.reverse_reverse]
    have hheld : a''.held a.size = roots' := by
      rw [held_of_contents? (contents?_of_element hshape), Arena.children, hhas (a.size + 1) (Nat.le_succ _) (by omega),
        Cell.children, hroots', hkeeps.cell (a.size + 1) (by simp) (Nat.succ_ne_self _), cell_plantHolder_root, List.append_nil,
        List.reverse_reverse]
    have hhere : a''.Has (a.plantHolder p name attrs).size a' := fun i hi hlt => by
      rw [size_plantHolder] at hi
      rw [hhas i (by omega) (by omega), hkeeps'.cell i hlt (by omega)]
    rw [trees_of_element hshape, hchildren, hheld, htrees a'' hhere depth (by simp; omega),
      htrees' a'' (fun i hi hlt => hhas i (by omega) hlt) depth (by omega)]
  | .text _, _, _, hp, _, hhas, _, hdepth => trees_of_plant hp (fun hs _ => by simp [trees, hs]) hhas hdepth
  | .comment _, _, _, hp, _, hhas, _, hdepth => trees_of_plant hp (fun hs _ => by simp [trees, hs]) hhas hdepth
  | .doctype _, _, _, hp, _, hhas, _, hdepth => trees_of_plant hp (fun hs _ => by simp [trees, hs]) hhas hdepth

/-- Trees are planted at places of their own, and an arena that has what was planted is read there as the trees. -/
theorem trees_plantParsedAll : (ns : List ParsedNode) → (a : Arena) → (p : Nat) → p < a.size →
    ∃ roots : List Nat, ((a.plantParsedAll p ns).cell p).lastFirst = roots.reverse ++ (a.cell p).lastFirst ∧
      ∀ a'' : Arena, a''.Has a.size (a.plantParsedAll p ns) → ∀ depth, (a.plantParsedAll p ns).size ≤ a.size + depth →
        a''.trees depth roots = ns
  | [], a, p, _ => ⟨[], rfl, fun a'' _ depth _ => trees_nil a'' depth⟩
  | n :: rest, a, p, hp => by
    have hfirst := keeps_plantParsed n a p hp
    have hp' := Nat.lt_of_lt_of_le hp hfirst.size
    have hmore := keeps_plantParsedAll rest (a.plantParsed p n) p hp'
    obtain ⟨roots, hroots, htrees⟩ := trees_plantParsedAll rest (a.plantParsed p n) p hp'
    refine ⟨a.size :: roots, ?_, fun a'' hhas depth hdepth => ?_⟩
    · rw [plantParsedAll, hroots, lastFirst_plantParsed hp]
      simp
    · rw [plantParsedAll] at hhas hdepth
      have hsize := hmore.size
      have hhere : a''.Has a.size (a.plantParsed p n) := fun i hi hlt => by
        rw [hhas i hi (by omega), hmore.cell i hlt (by omega)]
      rw [← List.singleton_append, trees_append, trees_plantParsed n a p hp a'' hhere depth (by omega),
        htrees a'' (fun i hi hlt => hhas i (Nat.le_trans hfirst.size hi) hlt) depth (by have := hfirst.size; omega)]
      rfl

end

/-- The arena of an empty document in which parsed trees are planted. -/
def ofParsed (ns : List ParsedNode) : Arena := Arena.empty.plantParsedAll document ns

/-- The trees that were planted in an empty document are read off it. -/
theorem toParsed_ofParsed (ns : List ParsedNode) : (ofParsed ns).toParsed = ns := by
  obtain ⟨roots, hroots, htrees⟩ := trees_plantParsedAll ns Arena.empty document (by decide)
  have hchildren : ((ofParsed ns).cell document).children = roots := by
    rw [Cell.children, ofParsed, hroots]
    simp [Arena.empty, document, cell]
  rw [toParsed, hchildren]
  exact htrees _ (fun _ _ _ => rfl) _ (by rw [ofParsed]; omega)

theorem isForest_ofParsed (ns : List ParsedNode) : (ofParsed ns).IsForest := by
  have hcell : ∀ i, Arena.empty.cell i = ⟨.root, none, []⟩ := fun i => by
    cases i with
    | zero => rfl
    | succ i => exact cell_of_size_le (by simp [Arena.empty])
  have hempty : Arena.empty.Planted := by
    refine ⟨by rw [hcell], fun {i j} hj => ?_, fun i => ?_, fun {i j} hj => ?_, fun {t c} hc => ?_⟩
    · simp [Arena.children, hcell, Cell.children] at hj
    · simp [Arena.children, hcell, Cell.children]
    · simp [Arena.children, hcell, Cell.children] at hj
    · simp [contents?, hcell] at hc
  exact (planted_plantParsedAll ns _ document (by decide) (.inl (by rw [hcell])) hempty).isForest

/-! ## The document of a page -/

/-- The contents of templates get into a document once and in order. The nodes of a parsed page are read off an arena with nodes as
those of a page are. In each such arena there are at most as many rounds as nodes, and after them no node of the page holds anything.
The nodes of the page are then those that stood in the document or in others or were held by others, each once, with each node's
children from before followed by what it held. Each node is still what it was, and the document that is read off is the one that the
parsed page has (`Document.parse`). -/
theorem inlineContents_spec (ns : List ParsedNode) :
    ((ofParsed ns).IsForest ∧ (ofParsed ns).toParsed = ns) ∧
      ∀ a : Arena, a.IsForest → a.toParsed = ns →
        ∃ b, a.inlineContents (a.size + 1) = some b ∧
          (∀ i ∈ b.order, b.held i = []) ∧
          b.order.Nodup ∧
          (∀ i, i ∈ b.order ↔ a.InPage i) ∧
          b.order = a.visits ∧
          (∀ i, (b.cell i).shape = (a.cell i).shape) ∧
          b.toParsed = Node.parsedAll (ParsedNode.inlinedAll ns) := by
  refine ⟨⟨isForest_ofParsed ns, toParsed_ofParsed ns⟩, ?_⟩
  rintro a ha rfl
  have hfuel : a.holders.card < a.size + 1 :=
    Nat.lt_succ_of_le ((Finset.card_filter_le _ _).trans_eq (Finset.card_range _))
  obtain ⟨b, hb, hforest, hsame, hpending⟩ := ha.exists_inlineContents hfuel
  have hheld : ∀ i ∈ b.order, b.held i = [] := by
    intro i hi
    exact held_of_pending_eq_nil hpending hi
  have horder : b.order = a.visits := (hforest.order_eq_visits hheld).trans hsame.visits_eq
  refine ⟨b, hb, hheld, ?_, ?_, horder, hsame.shape, ?_⟩
  · rw [horder]
    exact ha.nodup_visits
  · intro i
    rw [horder]
    exact ha.mem_visits_iff
  · rw [← hsame.inlinedAll_toParsed]
    exact trees_eq_parsedAll hheld

namespace NestedTemplatesWitness

/-- A page with a template that holds another one, and with a paragraph after it. -/
def page : List ParsedNode :=
  [.element ⟨.html, "template"⟩ [] []
      [.element ⟨.html, "h2"⟩ [] [.text "Card title"] [],
        .element ⟨.html, "template"⟩ [] [] [.element ⟨.html, "i"⟩ [] [.text "Inner"] []]],
    .element ⟨.html, "p"⟩ [] [.text "Bye"] []]

end NestedTemplatesWitness

open NestedTemplatesWitness in
/-- The two templates of `NestedTemplatesWitness` hold three nodes, and the page has all of its nodes in the order in which they are
written. -/
theorem inlineContents_spec_nested :
    (ofParsed page).IsForest ∧ (ofParsed page).toParsed = page ∧ (ofParsed page).pending = [(1, 2)] ∧
      ∃ b, (ofParsed page).inlineContents ((ofParsed page).size + 1) = some b ∧ b.order = [1, 3, 5, 6, 8, 10, 11, 13] ∧
        ∀ i ∈ b.order, b.held i = [] := by
  obtain ⟨⟨hforest, hparsed⟩, hall⟩ := inlineContents_spec page
  obtain ⟨b, hb, hheld, -, -, horder, -, -⟩ := hall (ofParsed page) hforest hparsed
  have hvisits : (ofParsed page).visits = [1, 3, 5, 6, 8, 10, 11, 13] := by decide +kernel
  refine ⟨hforest, hparsed, by decide +kernel, b, hb, horder.trans hvisits, hheld⟩

end Arena

end LocalePages
