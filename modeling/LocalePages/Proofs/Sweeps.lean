import LocalePages.Page.Selection
import LocalePages.Page.Sweep

/-!
# What a sweep does to a tree

A sweep revises the annotated elements of a document in order. Its state at the end is that of going through the list of annotated
elements (`Node.sweepAll_snd`), nested ones included. A sweep whose revisions do not depend on the state is a function on trees
(`Node.revisedAll`), and an element of its result is at the place of the element it was made from. A sweep leaves a document as it
is exactly when each revision leaves its element as it is (`Node.sweepAll_eq_self_iff`).
-/

namespace LocalePages

/-- Elements are the same when they are as nodes. -/
theorem Element.node_inj {e f : Element} : e.node = f.node ↔ e = f := by
  obtain ⟨name, attrs, children⟩ := e
  obtain ⟨name', attrs', children'⟩ := f
  simp [node]

namespace Node

/-- To prove something of all lists of nodes, prove it of a list whose first node is an element from what is inside the element
and from what comes after it, and of any other list from what comes after its first node. -/
@[elab_as_elim]
theorem forest_induction {motive : List Node → Prop} (nil : motive [])
    (element : ∀ name attrs children rest, motive children → motive rest → motive (.element name attrs children :: rest))
    (text : ∀ t rest, motive rest → motive (.text t :: rest))
    (comment : ∀ t rest, motive rest → motive (.comment t :: rest))
    (doctype : ∀ name rest, motive rest → motive (.doctype name :: rest)) : ∀ nodes, motive nodes
  | [] => nil
  | .element name attrs children :: rest =>
    element name attrs children rest (forest_induction nil element text comment doctype children)
      (forest_induction nil element text comment doctype rest)
  | .text t :: rest => text t rest (forest_induction nil element text comment doctype rest)
  | .comment t :: rest => comment t rest (forest_induction nil element text comment doctype rest)
  | .doctype name :: rest => doctype name rest (forest_induction nil element text comment doctype rest)

/-- The annotated elements in nodes, in order. -/
def annotatedAll (mark : Text) (nodes : List Node) : List Element := (elementsAll nodes).filter fun e => e.attrs.has mark

/-- The annotated elements of an element and of what comes after it. -/
theorem annotatedAll_element (mark : Text) (name : ElementName) (attrs : Attrs) (children rest : List Node) :
    annotatedAll mark (.element name attrs children :: rest) =
      (if attrs.has mark then [⟨name, attrs, children⟩] else []) ++ annotatedAll mark children ++ annotatedAll mark rest := by
  unfold annotatedAll
  rw [elementsAll, elements]
  split <;> rename_i h <;> simp [h]

@[simp] theorem annotatedAll_text (mark t : Text) (rest : List Node) :
    annotatedAll mark (.text t :: rest) = annotatedAll mark rest := rfl

@[simp] theorem annotatedAll_comment (mark t : Text) (rest : List Node) :
    annotatedAll mark (.comment t :: rest) = annotatedAll mark rest := rfl

@[simp] theorem annotatedAll_doctype (mark name : Text) (rest : List Node) :
    annotatedAll mark (.doctype name :: rest) = annotatedAll mark rest := rfl

end Node

/-- What is inside an element after a revision, when the elements inside have been revised to these nodes. -/
def Revision.inside (r : Revision) (nodes : List Node) : List Node :=
  match r.text with
  | some t => [.text t]
  | none => nodes

namespace Node

section Sweep

variable {σ : Type} {mark : Text} {revise : Element → σ → Revision × σ}

/-- A sweep over an element and what comes after it, step by step. -/
theorem sweepAll_element (name : ElementName) (attrs : Attrs) (children rest : List Node) (s : σ) :
    sweepAll mark revise (.element name attrs children :: rest) s =
      if attrs.has mark then
        let revised := revise ⟨name, attrs, children⟩ s
        let inside := sweepAll mark revise children revised.2
        let after := sweepAll mark revise rest inside.2
        (.element name revised.1.attrs (revised.1.inside inside.1) :: after.1, after.2)
      else
        let inside := sweepAll mark revise children s
        let after := sweepAll mark revise rest inside.2
        (.element name attrs inside.1 :: after.1, after.2) := by
  rw [sweepAll, sweep]
  by_cases h : attrs.has mark
  · simp only [if_pos h, Revision.inside]
    cases (revise ⟨name, attrs, children⟩ s).1.text <;> rfl
  · simp only [if_neg h]

/-- The state after a sweep is that of going through the annotated elements in order. -/
theorem sweepAll_snd (nodes : List Node) (s : σ) :
    (sweepAll mark revise nodes s).2 = (annotatedAll mark nodes).foldl (fun s e => (revise e s).2) s := by
  induction nodes using forest_induction generalizing s with
  | nil => rfl
  | element name attrs children rest ihc ihr =>
    rw [sweepAll_element, annotatedAll_element]
    split
    · rename_i h
      simp only [List.foldl_append, List.foldl_cons, List.foldl_nil, ihc, ihr]
    · simp only [List.foldl_append, List.foldl_nil, ihc, ihr]
  | text t rest ih => exact ih s
  | comment t rest ih => exact ih s
  | doctype name rest ih => exact ih s

/-- What every revision does to the state, a sweep does to it. -/
theorem rel_sweepAll {R : σ → σ → Prop} (hrefl : ∀ s, R s s) (htrans : ∀ {s s' s''}, R s s' → R s' s'' → R s s'')
    (hstep : ∀ e s, R s (revise e s).2) (nodes : List Node) (s : σ) : R s (sweepAll mark revise nodes s).2 := by
  rw [sweepAll_snd]
  induction annotatedAll mark nodes generalizing s with
  | nil => exact hrefl s
  | cons e rest ih => exact htrans (hstep e s) (ih _)

/-- Where related states make the same of an element and stay related, they make the same of nodes. -/
theorem sweepAll_congr {R : σ → σ → Prop}
    (hstep : ∀ e s s', R s s' → (revise e s).1 = (revise e s').1 ∧ R (revise e s).2 (revise e s').2) (nodes : List Node) {s s' : σ}
    (hs : R s s') :
    (sweepAll mark revise nodes s).1 = (sweepAll mark revise nodes s').1 ∧
      R (sweepAll mark revise nodes s).2 (sweepAll mark revise nodes s').2 := by
  induction nodes using forest_induction generalizing s s' with
  | nil => exact ⟨rfl, hs⟩
  | element name attrs children rest ihc ihr =>
    rw [sweepAll_element, sweepAll_element]
    split
    · obtain ⟨hrevision, hs⟩ := hstep ⟨name, attrs, children⟩ s s' hs
      obtain ⟨hinside, hs⟩ := ihc hs
      obtain ⟨hafter, hs⟩ := ihr hs
      exact ⟨by simp only [hrevision, hinside, hafter], hs⟩
    · obtain ⟨hinside, hs⟩ := ihc hs
      obtain ⟨hafter, hs⟩ := ihr hs
      exact ⟨by simp only [hinside, hafter], hs⟩
  | text t rest ih => exact ⟨congrArg (List.cons (Node.text t)) (ih hs).1, (ih hs).2⟩
  | comment t rest ih => exact ⟨congrArg (List.cons (Node.comment t)) (ih hs).1, (ih hs).2⟩
  | doctype name rest ih => exact ⟨congrArg (List.cons (Node.doctype name)) (ih hs).1, (ih hs).2⟩

/-- An annotated element of a swept document has the attributes that a revision gave it, and the text if it gave one. What every
revision does to the state leads to this revision from the start, and from there to the end. -/
theorem exists_revise_of_mem_sweepAll {R : σ → σ → Prop} (hrefl : ∀ s, R s s) (htrans : ∀ {s s' s''}, R s s' → R s' s'' → R s s'')
    (hstep : ∀ e s, R s (revise e s).2) {nodes : List Node} {s : σ} {f : Element}
    (hf : f ∈ annotatedAll mark (sweepAll mark revise nodes s).1) :
    ∃ e ∈ annotatedAll mark nodes, ∃ s', R s s' ∧ R (revise e s').2 (sweepAll mark revise nodes s).2 ∧
      f.attrs = (revise e s').1.attrs ∧ ∀ t, (revise e s').1.text = some t → f.children = [.text t] := by
  have hrel : ∀ nodes s, R s (sweepAll mark revise nodes s).2 := rel_sweepAll hrefl htrans hstep
  induction nodes using forest_induction generalizing s with
  | nil => cases hf
  | element name attrs children rest ihc ihr =>
    rw [sweepAll_element] at hf ⊢
    simp only [annotatedAll_element, List.mem_append]
    by_cases h : attrs.has mark = true
    · simp only [h, if_true] at hf ⊢
      simp only [annotatedAll_element, List.mem_append] at hf
      rcases hf with (hf | hf) | hf
      · split at hf
        · rw [List.mem_singleton.1 hf]
          refine ⟨⟨name, attrs, children⟩, Or.inl (Or.inl List.mem_cons_self), s, hrefl s, htrans (hrel _ _) (hrel _ _), rfl, ?_⟩
          intro t ht
          simp only [Revision.inside, ht]
        · cases hf
      · simp only [Revision.inside] at hf
        split at hf
        · cases hf
        · obtain ⟨e, he, s', hbefore, hafter, hrest⟩ := ihc hf
          exact ⟨e, Or.inl (Or.inr he), s', htrans (hstep _ _) hbefore, htrans hafter (hrel _ _), hrest⟩
      · obtain ⟨e, he, s', hbefore, hafter, hrest⟩ := ihr hf
        exact ⟨e, Or.inr he, s', htrans (htrans (hstep _ _) (hrel _ _)) hbefore, hafter, hrest⟩
    · simp only [if_neg h] at hf ⊢
      simp only [annotatedAll_element, List.mem_append, if_neg h] at hf
      rcases hf with (hf | hf) | hf
      · cases hf
      · obtain ⟨e, he, s', hbefore, hafter, hrest⟩ := ihc hf
        exact ⟨e, Or.inl (Or.inr he), s', hbefore, htrans hafter (hrel _ _), hrest⟩
      · obtain ⟨e, he, s', hbefore, hafter, hrest⟩ := ihr hf
        exact ⟨e, Or.inr he, s', htrans (hrel _ _) hbefore, hafter, hrest⟩
  | text t rest ih => exact ih hf
  | comment t rest ih => exact ih hf
  | doctype name rest ih => exact ih hf

/-- An element stays in its place exactly when its revision leaves it as it is and the elements inside it stay, too: where text
takes the place of what is inside, there is nothing inside that could change. -/
theorem element_eq_iff (mark : Text) (revise : Element → σ → Revision × σ) (e : Element) (r : Revision) (s : σ) :
    Node.element e.name r.attrs (r.inside (sweepAll mark revise e.children s).1) = e.node ↔
      r.apply e = e ∧ (sweepAll mark revise e.children s).1 = e.children := by
  obtain ⟨name, attrs, children⟩ := e
  obtain ⟨attrs', text?⟩ := r
  cases text? with
  | none => simp [Element.node, Revision.inside, Revision.apply]
  | some t =>
    simp only [Element.node, Revision.inside, Revision.apply, Node.element.injEq, Element.mk.injEq, true_and]
    constructor
    · rintro ⟨rfl, rfl⟩
      exact ⟨⟨rfl, rfl⟩, rfl⟩
    · rintro ⟨⟨rfl, rfl⟩, -⟩
      exact ⟨rfl, rfl⟩

/-- A sweep leaves nodes as they are exactly when each revision leaves its element as it is. What a revision may depend on is `I`,
which lasts as long as nothing is changed. -/
theorem sweepAll_eq_self_iff {I : σ → Prop} {g : Element → Revision} {nodes : List Node} {s : σ}
    (hg : ∀ e ∈ annotatedAll mark nodes, ∀ s, I s → (revise e s).1 = g e)
    (hI : ∀ e ∈ annotatedAll mark nodes, ∀ s, I s → (g e).apply e = e → I (revise e s).2) (hs : I s) :
    ((sweepAll mark revise nodes s).1 = nodes ↔ ∀ e ∈ annotatedAll mark nodes, (g e).apply e = e) ∧
      ((sweepAll mark revise nodes s).1 = nodes → I (sweepAll mark revise nodes s).2) := by
  induction nodes using forest_induction generalizing s with
  | nil => exact ⟨⟨fun _ e he => absurd he List.not_mem_nil, fun _ => rfl⟩, fun _ => hs⟩
  | element name attrs children rest ihc ihr =>
    simp only [annotatedAll_element, List.mem_append] at hg hI ⊢
    replace ihc := fun {s} => @ihc s (fun e he => hg e (Or.inl (Or.inr he))) fun e he => hI e (Or.inl (Or.inr he))
    replace ihr := fun {s} => @ihr s (fun e he => hg e (Or.inr he)) fun e he => hI e (Or.inr he)
    rw [sweepAll_element]
    by_cases h : attrs.has mark = true
    · simp only [h, if_true, List.mem_singleton] at hg hI ⊢
      rw [hg _ (Or.inl (Or.inl rfl)) s hs, List.cons.injEq]
      have hkept := element_eq_iff mark revise ⟨name, attrs, children⟩ (g ⟨name, attrs, children⟩)
        (revise ⟨name, attrs, children⟩ s).2
      simp only [Element.node] at hkept
      rw [hkept]
      have hfirst := hI _ (Or.inl (Or.inl rfl)) s hs
      refine ⟨⟨fun ⟨⟨hself, hin⟩, hafter⟩ e he => ?_, fun hall => ?_⟩, fun ⟨⟨hself, hin⟩, hafter⟩ => ?_⟩
      · rcases he with (rfl | he) | he
        · exact hself
        · exact (ihc (hfirst hself)).1.1 hin e he
        · exact (ihr ((ihc (hfirst hself)).2 hin)).1.1 hafter e he
      · have hself := hall _ (Or.inl (Or.inl rfl))
        have hin := (ihc (hfirst hself)).1.2 fun e he => hall e (Or.inl (Or.inr he))
        exact ⟨⟨hself, hin⟩, (ihr ((ihc (hfirst hself)).2 hin)).1.2 fun e he => hall e (Or.inr he)⟩
      · exact (ihr ((ihc (hfirst hself)).2 hin)).2 hafter
    · simp only [if_neg h, List.not_mem_nil, false_or, List.cons.injEq, Node.element.injEq, true_and]
      refine ⟨⟨fun ⟨hin, hafter⟩ e he => ?_, fun hall => ?_⟩, fun ⟨hin, hafter⟩ => ?_⟩
      · rcases he with he | he
        · exact (ihc hs).1.1 hin e he
        · exact (ihr ((ihc hs).2 hin)).1.1 hafter e he
      · have hin := (ihc hs).1.2 fun e he => hall e (Or.inl he)
        exact ⟨hin, (ihr ((ihc hs).2 hin)).1.2 fun e he => hall e (Or.inr he)⟩
      · exact (ihr ((ihc hs).2 hin)).2 hafter
  | text t rest ih => simpa [sweepAll, sweep] using ih hg hI hs
  | comment t rest ih => simpa [sweepAll, sweep] using ih hg hI hs
  | doctype name rest ih => simpa [sweepAll, sweep] using ih hg hI hs

end Sweep

/-! ## Revisions that do not depend on the state -/

mutual

/-- The node with its annotated elements revised, each from what it is in the node that is given. -/
def revised (mark : Text) (g : Element → Revision) : Node → Node
  | .element name attrs children =>
    if attrs.has mark then
      .element name (g ⟨name, attrs, children⟩).attrs ((g ⟨name, attrs, children⟩).inside (revisedAll mark g children))
    else .element name attrs (revisedAll mark g children)
  | .text t => .text t
  | .comment t => .comment t
  | .doctype name => .doctype name

/-- The nodes with their annotated elements revised. -/
def revisedAll (mark : Text) (g : Element → Revision) : List Node → List Node
  | [] => []
  | n :: rest => n.revised mark g :: revisedAll mark g rest

end

end Node

/-- The element with itself, if it is annotated, and the elements inside it revised. -/
def Element.revised (mark : Text) (g : Element → Revision) (e : Element) : Element :=
  if e.attrs.has mark then ⟨e.name, (g e).attrs, (g e).inside (Node.revisedAll mark g e.children)⟩
  else ⟨e.name, e.attrs, Node.revisedAll mark g e.children⟩

/-- The document with its annotated elements revised. -/
def Document.revised (mark : Text) (g : Element → Revision) (d : Document) : Document :=
  { d with nodes := Node.revisedAll mark g d.nodes }

namespace Node

variable {mark : Text} {g : Element → Revision}

/-- An element node is revised as its element is. -/
theorem revised_node (mark : Text) (g : Element → Revision) (e : Element) : e.node.revised mark g = (e.revised mark g).node := by
  unfold Element.node Element.revised revised
  split <;> rfl

/-- Revising an element and what comes after it. -/
theorem revisedAll_element (name : ElementName) (attrs : Attrs) (children rest : List Node) :
    revisedAll mark g (.element name attrs children :: rest) =
      (Element.revised mark g ⟨name, attrs, children⟩).node :: revisedAll mark g rest := by
  rw [revisedAll, ← revised_node]
  rfl

/-- Nodes are revised one by one. -/
theorem revisedAll_eq_map (nodes : List Node) : revisedAll mark g nodes = nodes.map (revised mark g) := by
  induction nodes with
  | nil => rfl
  | cons n rest ih => rw [revisedAll, ih, List.map_cons]

/-- A sweep whose revisions are `g` as long as `I` lasts, and which keeps `I`, revises the nodes by `g`. -/
theorem sweepAll_eq_revisedAll {σ : Type} {revise : Element → σ → Revision × σ} {I : σ → Prop} {nodes : List Node} {s : σ}
    (h : ∀ e ∈ annotatedAll mark nodes, ∀ s, I s → (revise e s).1 = g e ∧ I (revise e s).2) (hs : I s) :
    (sweepAll mark revise nodes s).1 = revisedAll mark g nodes ∧ I (sweepAll mark revise nodes s).2 := by
  induction nodes using forest_induction generalizing s with
  | nil => exact ⟨rfl, hs⟩
  | element name attrs children rest ihc ihr =>
    simp only [annotatedAll_element, List.mem_append] at h
    rw [sweepAll_element, revisedAll_element]
    by_cases hm : attrs.has mark = true
    · simp only [hm, if_true, List.mem_singleton] at h ⊢
      obtain ⟨hg, hs⟩ := h _ (Or.inl (Or.inl rfl)) s hs
      obtain ⟨hin, hs⟩ := ihc (fun e he => h e (Or.inl (Or.inr he))) hs
      obtain ⟨hafter, hs⟩ := ihr (fun e he => h e (Or.inr he)) hs
      refine ⟨?_, hs⟩
      rw [hafter, hin, hg]
      simp [Element.revised, Element.node, hm]
    · simp only [hm, if_false, Bool.false_eq_true] at h ⊢
      obtain ⟨hin, hs⟩ := ihc (fun e he => h e (Or.inl (Or.inr he))) hs
      obtain ⟨hafter, hs⟩ := ihr (fun e he => h e (Or.inr he)) hs
      refine ⟨?_, hs⟩
      rw [hafter, hin]
      simp [Element.revised, Element.node, hm]
  | text t rest ih =>
    obtain ⟨hafter, hs⟩ := ih h hs
    exact ⟨congrArg _ hafter, hs⟩
  | comment t rest ih =>
    obtain ⟨hafter, hs⟩ := ih h hs
    exact ⟨congrArg _ hafter, hs⟩
  | doctype name rest ih =>
    obtain ⟨hafter, hs⟩ := ih h hs
    exact ⟨congrArg _ hafter, hs⟩

/-- A revised node that is an element was made from an element. -/
theorem exists_of_revised_eq_node {n : Node} {f : Element} (h : n.revised mark g = f.node) :
    ∃ e : Element, n = e.node ∧ f = e.revised mark g := by
  cases n with
  | element name attrs children =>
    have he := revised_node mark g ⟨name, attrs, children⟩
    rw [Element.node, h] at he
    exact ⟨⟨name, attrs, children⟩, rfl, Element.node_inj.1 he⟩
  | text t => cases h
  | comment t => cases h
  | doctype name => cases h

/-- An element at a place among nodes is the node there. -/
theorem elementAt?_singleton_iff {nodes : List Node} {i : Nat} {f : Element} :
    elementAt? nodes [i] = some f ↔ nodes[i]? = some f.node := by
  rw [elementAt?]
  constructor
  · intro h
    split at h
    · rename_i hn
      cases h
      exact hn
    · cases h
  · intro h
    rw [h]
    rfl

/-- An element further down is found in the element that the way starts with. -/
theorem elementAt?_cons_iff {nodes : List Node} {i j : Nat} {way : List Nat} {f : Element} :
    elementAt? nodes (i :: j :: way) = some f ↔
      ∃ e : Element, nodes[i]? = some e.node ∧ elementAt? e.children (j :: way) = some f := by
  rw [elementAt?]
  rotate_left
  · exact List.cons_ne_nil j way
  constructor
  · intro h
    split at h
    · rename_i name attrs children hn
      exact ⟨⟨name, attrs, children⟩, hn, h⟩
    · cases h
  · rintro ⟨e, hn, h⟩
    rw [hn]
    exact h

/-- The ways into nodes after the first start one later. -/
theorem elementAt?_succ (n : Node) (rest : List Node) (i : Nat) (way : List Nat) :
    elementAt? (n :: rest) ((i + 1) :: way) = elementAt? rest (i :: way) := by
  cases way <;> simp only [elementAt?, List.getElem?_cons_succ]

/-- The elements in nodes are those at the end of some way into them. -/
theorem mem_elementsAll_iff {nodes : List Node} {e : Element} :
    e ∈ elementsAll nodes ↔ ∃ way, elementAt? nodes way = some e := by
  constructor
  · have hlater : ∀ n rest way, elementAt? rest way = some e → ∃ way, elementAt? (n :: rest) way = some e := by
      intro n rest way hat
      cases way with
      | nil => simp [elementAt?] at hat
      | cons i way => exact ⟨(i + 1) :: way, by rw [elementAt?_succ, hat]⟩
    intro he
    induction nodes using forest_induction with
    | nil => cases he
    | element name attrs children rest ihc ihr =>
      rw [elementsAll, elements, List.cons_append, List.mem_cons, List.mem_append] at he
      rcases he with rfl | he | he
      · exact ⟨[0], elementAt?_singleton_iff.2 rfl⟩
      · obtain ⟨way, hat⟩ := ihc he
        cases way with
        | nil => simp [elementAt?] at hat
        | cons j way => exact ⟨0 :: j :: way, elementAt?_cons_iff.2 ⟨⟨name, attrs, children⟩, rfl, hat⟩⟩
      · obtain ⟨way, hat⟩ := ihr he
        exact hlater _ rest way hat
    | text t rest ih =>
      obtain ⟨way, hat⟩ := ih he
      exact hlater _ rest way hat
    | comment t rest ih =>
      obtain ⟨way, hat⟩ := ih he
      exact hlater _ rest way hat
    | doctype name rest ih =>
      obtain ⟨way, hat⟩ := ih he
      exact hlater _ rest way hat
  · have hinside : ∀ {nodes : List Node} {f : Element}, f.node ∈ nodes → f :: elementsAll f.children ⊆ elementsAll nodes := by
      intro nodes f hf
      induction nodes with
      | nil => cases hf
      | cons n rest ih =>
        rw [elementsAll]
        rcases List.mem_cons.1 hf with rfl | hf
        · exact List.subset_append_left _ _
        · exact fun g hg => List.mem_append_right _ (ih hf hg)
    rintro ⟨way, hat⟩
    induction way generalizing nodes with
    | nil => simp [elementAt?] at hat
    | cons i way ih =>
      cases way with
      | nil => exact hinside (List.mem_of_getElem? (elementAt?_singleton_iff.1 hat)) List.mem_cons_self
      | cons j way =>
        obtain ⟨f, hi, hdown⟩ := elementAt?_cons_iff.1 hat
        exact hinside (List.mem_of_getElem? hi) (List.mem_cons_of_mem _ (ih hdown))

/-- There is no element in a text. -/
theorem elementAt?_text (t : Text) (way : List Nat) : elementAt? [.text t] way = none := by
  refine Option.eq_none_iff_forall_ne_some.2 fun f h => ?_
  match way with
  | [] => simp [elementAt?] at h
  | [i] =>
    rw [elementAt?_singleton_iff, List.getElem?_singleton] at h
    split at h <;> cases h
  | i :: j :: way =>
    obtain ⟨e, hi, -⟩ := elementAt?_cons_iff.1 h
    rw [List.getElem?_singleton] at hi
    split at hi <;> cases hi

/-- An element of revised nodes stands where the element stood that it was made from. -/
theorem elementAt?_revisedAll {way : List Nat} {nodes : List Node} {f : Element}
    (hf : elementAt? (revisedAll mark g nodes) way = some f) :
    ∃ e, elementAt? nodes way = some e ∧ f = e.revised mark g := by
  have hfirst : ∀ {nodes : List Node} {i : Nat} {f : Element}, (revisedAll mark g nodes)[i]? = some f.node →
      ∃ e : Element, nodes[i]? = some e.node ∧ f = e.revised mark g := by
    intro nodes i f hi
    rw [revisedAll_eq_map, List.getElem?_map] at hi
    obtain ⟨n, hn, hf⟩ := Option.map_eq_some_iff.1 hi
    obtain ⟨e, rfl, he⟩ := exists_of_revised_eq_node hf
    exact ⟨e, hn, he⟩
  induction way generalizing nodes with
  | nil => simp [elementAt?] at hf
  | cons i way ih =>
    cases way with
    | nil =>
      obtain ⟨e, hi, he⟩ := hfirst (elementAt?_singleton_iff.1 hf)
      exact ⟨e, elementAt?_singleton_iff.2 hi, he⟩
    | cons j way =>
      obtain ⟨e', hi, hdown⟩ := elementAt?_cons_iff.1 hf
      obtain ⟨e, hei, rfl⟩ := hfirst hi
      have hinside : elementAt? (revisedAll mark g e.children) (j :: way) = some f := by
        unfold Element.revised Revision.inside at hdown
        split at hdown
        · split at hdown
          · rw [elementAt?_text] at hdown
            cases hdown
          · exact hdown
        · exact hdown
      obtain ⟨e₂, hat, he₂⟩ := ih hinside
      exact ⟨e₂, elementAt?_cons_iff.2 ⟨e, hei, hat⟩, he₂⟩

/-- Where no text takes the place of what is inside an element, the text of nodes stays. -/
theorem textContentsAll_revisedAll {nodes : List Node} (h : ∀ e ∈ annotatedAll mark nodes, (g e).text = none) :
    textContentsAll (revisedAll mark g nodes) = textContentsAll nodes := by
  induction nodes using forest_induction with
  | nil => rfl
  | element name attrs children rest ihc ihr =>
    simp only [annotatedAll_element, List.mem_append] at h
    have hc := ihc fun e he => h e (Or.inl (Or.inr he))
    have hr := ihr fun e he => h e (Or.inr he)
    rw [revisedAll_element]
    simp only [textContentsAll, Element.node, textContents, hr, Element.revised]
    by_cases hm : attrs.has mark = true
    · have hnone := h ⟨name, attrs, children⟩ (Or.inl (Or.inl (by simp [hm])))
      simp [hm, Revision.inside, hnone, hc]
    · simp [hm, hc]
  | text t rest ih => simp [revisedAll, revised, textContentsAll, ih h]
  | comment t rest ih => simp [revisedAll, revised, textContentsAll, ih h]
  | doctype name rest ih => simp [revisedAll, revised, textContentsAll, ih h]

/-- The annotated elements of revised nodes come from annotated ones. -/
theorem exists_of_mem_annotatedAll_revisedAll {nodes : List Node} {f : Element}
    (hf : f ∈ annotatedAll mark (revisedAll mark g nodes)) : ∃ e ∈ annotatedAll mark nodes, f = e.revised mark g := by
  induction nodes using forest_induction with
  | nil => cases hf
  | element name attrs children rest ihc ihr =>
    rw [revisedAll_element, Element.node, annotatedAll_element] at hf
    simp only [annotatedAll_element, List.mem_append] at hf ⊢
    rcases hf with (hf | hf) | hf
    · split at hf
      · rename_i hm
        rw [List.mem_singleton] at hf
        by_cases h : attrs.has mark = true
        · exact ⟨⟨name, attrs, children⟩, Or.inl (Or.inl (by simp [h])), hf⟩
        · simp [Element.revised, h] at hm
      · cases hf
    · unfold Element.revised Revision.inside at hf
      have hin : f ∈ annotatedAll mark (revisedAll mark g children) := by
        split at hf
        · split at hf
          · cases hf
          · exact hf
        · exact hf
      obtain ⟨e, he, hfe⟩ := ihc hin
      exact ⟨e, Or.inl (Or.inr he), hfe⟩
    · obtain ⟨e, he, hfe⟩ := ihr hf
      exact ⟨e, Or.inr he, hfe⟩
  | text t rest ih => exact ih hf
  | comment t rest ih => exact ih hf
  | doctype name rest ih => exact ih hf

/-- Where no text takes the place of what is inside an element and every element stays annotated, the annotated elements of
revised nodes are the revised ones, in order. -/
theorem annotatedAll_revisedAll {nodes : List Node}
    (h : ∀ e ∈ annotatedAll mark nodes, (g e).text = none ∧ (g e).attrs.has mark = true) :
    annotatedAll mark (revisedAll mark g nodes) = (annotatedAll mark nodes).map (Element.revised mark g) := by
  induction nodes using forest_induction with
  | nil => rfl
  | element name attrs children rest ihc ihr =>
    simp only [annotatedAll_element, List.mem_append] at h
    have hc := ihc fun e he => h e (Or.inl (Or.inr he))
    have hr := ihr fun e he => h e (Or.inr he)
    rw [revisedAll_element, Element.node, annotatedAll_element, annotatedAll_element, hr]
    by_cases hm : attrs.has mark = true
    · obtain ⟨hnone, hhas⟩ := h ⟨name, attrs, children⟩ (Or.inl (Or.inl (by simp [hm])))
      simp [Element.revised, Revision.inside, hm, hnone, hhas, hc]
    · simp [Element.revised, hm, hc]
  | text t rest ih => exact ih h
  | comment t rest ih => exact ih h
  | doctype name rest ih => exact ih h

/-- The text inside an element is part of the text of the nodes it is in. -/
theorem mem_textContentsAll_of_mem_annotatedAll {nodes : List Node} {e : Element} (he : e ∈ annotatedAll mark nodes) {c : Char}
    (hc : c ∈ textContentsAll e.children) : c ∈ textContentsAll nodes := by
  induction nodes using forest_induction with
  | nil => cases he
  | element name attrs children rest ihc ihr =>
    simp only [annotatedAll_element, List.mem_append] at he
    simp only [textContentsAll, textContents, List.mem_append]
    rcases he with (he | he) | he
    · split at he
      · rw [List.mem_singleton.1 he] at hc
        exact Or.inl hc
      · cases he
    · exact Or.inl (ihc he)
    · exact Or.inr (ihr he)
  | text t rest ih => exact List.mem_append_right _ (ih he)
  | comment t rest ih => exact List.mem_append_right _ (ih he)
  | doctype name rest ih => exact List.mem_append_right _ (ih he)

end Node

end LocalePages
