import LocalePages.Proofs.Sweeps
import Mathlib.Data.List.Nodup

/-!
# Where a sweep goes and what it leaves

A sweep comes to the annotated elements one after the other. A `Node.Visit` is an element with its place and with the state in
which the sweep comes to it. What the sweep makes of a document is told place by place (`Node.sweptTo_sweepAll`): outside the
elements whose text was replaced, each node is still where it was, and only an annotated element is changed, as its visit says.
-/

namespace LocalePages

namespace Node

/-! ## Places -/

/-- The node at the end of a way into nodes. -/
def nodeAt? : List Node → List Nat → Option Node
  | _, [] => none
  | nodes, [i] => nodes[i]?
  | nodes, i :: way =>
    match nodes[i]? with
    | some (.element _ _ children) => nodeAt? children way
    | _ => none

/-- Whether a place is inside that of an element. -/
def IsInside (outer way : List Nat) : Prop := outer <+: way ∧ outer ≠ way

instance (outer way : List Nat) : Decidable (IsInside outer way) := inferInstanceAs (Decidable (_ ∧ _))

/-- The annotated elements in nodes with their places, in order; the first of the nodes has the place that is given. -/
def placedFrom (mark : Text) (place : Nat) (nodes : List Node) : List (List Nat × Element) :=
  (waysToAll mark place nodes).zip (annotatedAll mark nodes)

/-- An annotated element as a sweep comes to it: its place, the element as it is in the document, and the state. -/
structure Visit (σ : Type) where
  way : List Nat
  element : Element
  state : σ

section

variable {σ : Type}

/-- The visits to elements in order. -/
def visitsFrom (revise : Element → σ → Revision × σ) : List (List Nat × Element) → σ → List (Visit σ)
  | [], _ => []
  | (way, e) :: rest, s => ⟨way, e, s⟩ :: visitsFrom revise rest (revise e s).2

/-- The visits of a sweep over nodes, in order. -/
def visits (mark : Text) (revise : Element → σ → Revision × σ) (nodes : List Node) (s : σ) : List (Visit σ) :=
  visitsFrom revise (placedFrom mark 0 nodes) s

/-- What a sweep whose visits are given leaves of the node at the end of a way. -/
inductive SweptTo (mark : Text) (revise : Element → σ → Revision × σ) (vs : List (Visit σ)) (way : List Nat) :
    Option Node → Option Node → Prop
  /-- Where there was nothing there is nothing. -/
  | nothing : SweptTo mark revise vs way none none
  | text (t : Text) : SweptTo mark revise vs way (some (.text t)) (some (.text t))
  | comment (t : Text) : SweptTo mark revise vs way (some (.comment t)) (some (.comment t))
  | doctype (name : Text) : SweptTo mark revise vs way (some (.doctype name)) (some (.doctype name))
  /-- An element that is not annotated has as many nodes in it as before. -/
  | plain {name : ElementName} {attrs : Attrs} {children : List Node} (inside : List Node) :
      attrs.has mark = false → inside.length = children.length →
      SweptTo mark revise vs way (some (.element name attrs children)) (some (.element name attrs inside))
  /-- An annotated element was revised when it was visited. -/
  | visited (v : Visit σ) (inside : List Node) :
      v ∈ vs → v.way = way → v.element.attrs.has mark = true → inside.length = v.element.children.length →
      SweptTo mark revise vs way (some v.element.node)
        (some (.element v.element.name (revise v.element v.state).1.attrs ((revise v.element v.state).1.inside inside)))

variable {mark : Text} {revise : Element → σ → Revision × σ}

/-- The visits to elements and to the ones after them. -/
theorem visitsFrom_append (xs ys : List (List Nat × Element)) (s : σ) :
    visitsFrom revise (xs ++ ys) s =
      visitsFrom revise xs s ++ visitsFrom revise ys (xs.foldl (fun s x => (revise x.2 s).2) s) := by
  induction xs generalizing s with
  | nil => rfl
  | cons x xs ih => rw [List.cons_append, visitsFrom, ih, visitsFrom, List.foldl_cons, List.cons_append]

/-- Visits see the elements only: other places make no difference to the states. -/
theorem visitsFrom_map (f : List Nat → List Nat) (xs : List (List Nat × Element)) (s : σ) :
    visitsFrom revise (xs.map fun x => (f x.1, x.2)) s = (visitsFrom revise xs s).map fun v => { v with way := f v.way } := by
  induction xs generalizing s with
  | nil => rfl
  | cons x xs ih => rw [List.map_cons, visitsFrom, ih, visitsFrom, List.map_cons]

/-- There is a way to each annotated element. -/
theorem length_waysToAll (mark : Text) (place : Nat) (nodes : List Node) :
    (waysToAll mark place nodes).length = (annotatedAll mark nodes).length := by
  induction nodes using forest_induction generalizing place with
  | nil => rfl
  | element name attrs children rest ihc ihr =>
    rw [waysToAll, waysTo, annotatedAll_element]
    by_cases hm : attrs.has mark = true <;> simp [hm, ihc, ihr]
  | text t rest ih => exact ih (place + 1)
  | comment t rest ih => exact ih (place + 1)
  | doctype name rest ih => exact ih (place + 1)

/-- The elements with places are the annotated ones. -/
theorem map_snd_placedFrom (mark : Text) (place : Nat) (nodes : List Node) :
    (placedFrom mark place nodes).map Prod.snd = annotatedAll mark nodes :=
  List.map_snd_zip (Nat.le_of_eq (length_waysToAll mark place nodes).symm)

/-- The annotated elements with their places, in an element and in what comes after it. -/
theorem placedFrom_element (mark : Text) (place : Nat) (name : ElementName) (attrs : Attrs) (children rest : List Node) :
    placedFrom mark place (.element name attrs children :: rest) =
      (if attrs.has mark then [([place], ⟨name, attrs, children⟩)] else []) ++
        (placedFrom mark 0 children).map (fun x => (place :: x.1, x.2)) ++ placedFrom mark (place + 1) rest := by
  have hlength : ((waysToAll mark 0 children).map (place :: ·)).length = (annotatedAll mark children).length := by
    rw [List.length_map, length_waysToAll]
  have hinside : (placedFrom mark 0 children).map (fun x => (place :: x.1, x.2)) =
      ((waysToAll mark 0 children).map (place :: ·)).zip (annotatedAll mark children) := by
    rw [placedFrom, List.zip_map_left]
    rfl
  rw [hinside, placedFrom, waysToAll, waysTo, annotatedAll_element]
  by_cases hm : attrs.has mark = true
  · simp only [hm, if_true, List.map_cons]
    rw [List.zip_append (by simpa using hlength)]
    rfl
  · simp only [hm, if_false, Bool.false_eq_true, List.nil_append]
    rw [List.zip_append hlength]
    rfl

/-- The state after visits is that of the sweep. -/
theorem foldl_placedFrom (place : Nat) (nodes : List Node) (s : σ) :
    (placedFrom mark place nodes).foldl (fun s x => (revise x.2 s).2) s = (sweepAll mark revise nodes s).2 := by
  rw [sweepAll_snd, ← map_snd_placedFrom mark place nodes, List.foldl_map]

/-- The visits of a sweep over an element and what comes after it, step by step. -/
theorem visitsFrom_element (place : Nat) (name : ElementName) (attrs : Attrs) (children rest : List Node) (s : σ) :
    visitsFrom revise (placedFrom mark place (.element name attrs children :: rest)) s =
      if attrs.has mark then
        let revised := revise ⟨name, attrs, children⟩ s
        ⟨[place], ⟨name, attrs, children⟩, s⟩ ::
          ((visitsFrom revise (placedFrom mark 0 children) revised.2).map fun v => { v with way := place :: v.way }) ++
          visitsFrom revise (placedFrom mark (place + 1) rest) (sweepAll mark revise children revised.2).2
      else
        ((visitsFrom revise (placedFrom mark 0 children) s).map fun v => { v with way := place :: v.way }) ++
          visitsFrom revise (placedFrom mark (place + 1) rest) (sweepAll mark revise children s).2 := by
  rw [placedFrom_element]
  by_cases hm : attrs.has mark = true
  · simp only [hm, if_true, visitsFrom, visitsFrom_append, List.cons_append, List.nil_append, visitsFrom_map (place :: ·),
      List.foldl_map, foldl_placedFrom]
  · simp only [hm, if_false, Bool.false_eq_true, List.nil_append, visitsFrom_append, visitsFrom_map (place :: ·),
      List.foldl_map, foldl_placedFrom]

/-! ## The visits of a sweep -/

/-- The visits to elements are those to these elements at their places, in order. -/
theorem map_visitsFrom (revise : Element → σ → Revision × σ) (xs : List (List Nat × Element)) (s : σ) :
    (visitsFrom revise xs s).map (fun v => (v.way, v.element)) = xs := by
  induction xs generalizing s with
  | nil => rfl
  | cons x xs ih => rw [visitsFrom, List.map_cons, ih]

/-- A sweep visits the annotated elements, in order. -/
theorem map_element_visits (mark : Text) (revise : Element → σ → Revision × σ) (nodes : List Node) (s : σ) :
    (visits mark revise nodes s).map Visit.element = annotatedAll mark nodes := by
  rw [← map_snd_placedFrom mark 0 nodes, ← map_visitsFrom revise (placedFrom mark 0 nodes) s, List.map_map]
  rfl

/-- The way into nodes starts at one of them. -/
theorem exists_of_mem_waysToAll {place : Nat} {nodes : List Node} {way : List Nat} (h : way ∈ waysToAll mark place nodes) :
    ∃ i rest, place ≤ i ∧ way = i :: rest := by
  induction nodes generalizing place with
  | nil => cases h
  | cons n nodes ih =>
    rw [waysToAll, List.mem_append] at h
    rcases h with h | h
    · obtain ⟨rest, -, rfl⟩ := List.mem_map.1 h
      exact ⟨place, rest, Nat.le_refl place, rfl⟩
    · obtain ⟨i, rest, hi, rfl⟩ := ih h
      exact ⟨i, rest, by omega, rfl⟩

/-- The ways to annotated elements are different. -/
theorem nodup_waysToAll (mark : Text) (place : Nat) (nodes : List Node) : (waysToAll mark place nodes).Nodup := by
  -- the ways that start at a first node, and those that start later
  have happend : ∀ {ways : List (List Nat)} {place : Nat} {rest : List Node}, ways.Nodup →
      (waysToAll mark (place + 1) rest).Nodup → (ways.map (place :: ·) ++ waysToAll mark (place + 1) rest).Nodup := by
    intro ways place rest hways hrest
    refine List.nodup_append.2 ⟨hways.map fun _ _ => List.tail_eq_of_cons_eq, hrest, ?_⟩
    intro way hway later hlater
    obtain ⟨down, -, rfl⟩ := List.mem_map.1 hway
    obtain ⟨i, down', hi, rfl⟩ := exists_of_mem_waysToAll hlater
    intro heq
    have hplace : place = i := List.head_eq_of_cons_eq heq
    omega
  induction nodes using forest_induction generalizing place with
  | nil => exact List.nodup_nil
  | element name attrs children rest ihc ihr =>
    rw [waysToAll, waysTo]
    refine happend ?_ (ihr (place + 1))
    split
    · refine List.nodup_cons.2 ⟨fun hself => ?_, ihc 0⟩
      obtain ⟨i, down, -, heq⟩ := exists_of_mem_waysToAll hself
      cases heq
    · exact ihc 0
  | text t rest ih => exact ih (place + 1)
  | comment t rest ih => exact ih (place + 1)
  | doctype name rest ih => exact ih (place + 1)

/-- No place is visited twice. -/
theorem nodup_visits (mark : Text) (revise : Element → σ → Revision × σ) (nodes : List Node) (s : σ) :
    ((visits mark revise nodes s).map Visit.way).Nodup := by
  have hways : (visits mark revise nodes s).map Visit.way = (placedFrom mark 0 nodes).map Prod.fst := by
    rw [← map_visitsFrom revise (placedFrom mark 0 nodes) s, List.map_map]
    rfl
  rw [hways, placedFrom, List.map_fst_zip (Nat.le_of_eq (length_waysToAll mark 0 nodes))]
  exact nodup_waysToAll mark 0 nodes

/-- What every revision does to the state leads from the start of a sweep to each of its visits. -/
theorem rel_of_mem_visits {R : σ → σ → Prop} (hrefl : ∀ s, R s s) (htrans : ∀ {s s' s''}, R s s' → R s' s'' → R s s'')
    (hstep : ∀ e s, R s (revise e s).2) {nodes : List Node} {s : σ} {v : Visit σ} (hv : v ∈ visits mark revise nodes s) :
    R s v.state := by
  rw [visits] at hv
  generalize placedFrom mark 0 nodes = xs at hv
  induction xs generalizing s with
  | nil => cases hv
  | cons x xs ih =>
    rcases List.mem_cons.1 hv with rfl | hv
    · exact hrefl s
    · exact htrans (hstep x.2 s) (ih hv)

/-- Where each visit adds something to a part of the state, a sweep adds what its visits add, in order. -/
theorem sweepAll_snd_of_visits {α β : Type} (part : σ → β) {add : β → List α → β} {adds : Visit σ → List α}
    (hnil : ∀ b, add b [] = b) (happend : ∀ b as as', add b (as ++ as') = add (add b as) as')
    (hstep : ∀ v, part (revise v.element v.state).2 = add (part v.state) (adds v)) (nodes : List Node) (s : σ) :
    part (sweepAll mark revise nodes s).2 = add (part s) ((visits mark revise nodes s).flatMap adds) := by
  rw [← foldl_placedFrom 0, visits]
  induction placedFrom mark 0 nodes generalizing s with
  | nil => exact (hnil (part s)).symm
  | cons x xs ih => rw [List.foldl_cons, ih, visitsFrom, List.flatMap_cons, happend, ← hstep ⟨x.1, x.2, s⟩]

/-! ## Place by place -/

/-- A place inside an element is the same step further down. -/
theorem isInside_cons_iff {i : Nat} {outer way : List Nat} : IsInside (i :: outer) (i :: way) ↔ IsInside outer way := by
  simp [IsInside]

/-- Below the place of an element is inside it. -/
theorem isInside_singleton (i j : Nat) (way : List Nat) : IsInside [i] (i :: j :: way) := by
  simp [IsInside]

/-- The way into a first element goes on inside it. -/
theorem nodeAt?_element (name : ElementName) (attrs : Attrs) (children rest : List Node) (j : Nat) (way : List Nat) :
    nodeAt? (.element name attrs children :: rest) (0 :: j :: way) = nodeAt? children (j :: way) := by
  rw [nodeAt?]
  · rfl
  · exact List.cons_ne_nil j way

/-- The ways into nodes after the first start one later. -/
theorem nodeAt?_succ (n : Node) (rest : List Node) (i : Nat) (way : List Nat) :
    nodeAt? (n :: rest) ((i + 1) :: way) = nodeAt? rest (i :: way) := by
  cases way <;> simp only [nodeAt?, List.getElem?_cons_succ]

/-- An annotated element is at its place; the first of the nodes has the place that is given. -/
theorem exists_of_mem_placedFrom {place : Nat} {nodes : List Node} {x : List Nat × Element} (h : x ∈ placedFrom mark place nodes) :
    ∃ i way, x.1 = (place + i) :: way ∧ nodeAt? nodes (i :: way) = some x.2.node := by
  -- an element after the first node has a place that is one further
  have hlater : ∀ {place : Nat} {x : List Nat × Element} {n : Node} {rest : List Node},
      (∃ i way, x.1 = (place + 1 + i) :: way ∧ nodeAt? rest (i :: way) = some x.2.node) →
      ∃ i way, x.1 = (place + i) :: way ∧ nodeAt? (n :: rest) (i :: way) = some x.2.node := by
    rintro place x n rest ⟨i, way, hway, hat⟩
    refine ⟨i + 1, way, ?_, ?_⟩
    · rw [hway, Nat.add_right_comm, Nat.add_assoc]
    · rw [nodeAt?_succ, hat]
  induction nodes using forest_induction generalizing place x with
  | nil => cases h
  | element name attrs children rest ihc ihr =>
    rw [placedFrom_element, List.mem_append, List.mem_append] at h
    rcases h with (h | h) | h
    · split at h
      · rw [List.mem_singleton.1 h]
        exact ⟨0, [], rfl, rfl⟩
      · cases h
    · obtain ⟨y, hy, rfl⟩ := List.mem_map.1 h
      obtain ⟨j, way, hway, hat⟩ := ihc hy
      refine ⟨0, j :: way, ?_, ?_⟩
      · rw [hway, Nat.zero_add, Nat.add_zero]
      · rw [nodeAt?_element, hat]
    · exact hlater (ihr h)
  | text t rest ih => exact hlater (ih h)
  | comment t rest ih => exact hlater (ih h)
  | doctype name rest ih => exact hlater (ih h)

/-- A sweep leaves as many nodes as there were. -/
theorem length_sweepAll (nodes : List Node) (s : σ) : (sweepAll mark revise nodes s).1.length = nodes.length := by
  induction nodes generalizing s with
  | nil => rfl
  | cons n rest ih => rw [sweepAll, List.length_cons, List.length_cons, ih]

/-- What is left of a node does not hang on what place the way is given from. -/
theorem SweptTo.moved {vs vs' : List (Visit σ)} {way way' : List Nat} {n n' : Option Node} (h : SweptTo mark revise vs way n n')
    (hvs : ∀ v ∈ vs, v.way = way → { v with way := way' } ∈ vs') : SweptTo mark revise vs' way' n n' := by
  cases h with
  | nothing => exact .nothing
  | text t => exact .text t
  | comment t => exact .comment t
  | doctype name => exact .doctype name
  | plain inside hm hlength => exact .plain inside hm hlength
  | visited v inside hv hway hm hlength => exact .visited { v with way := way' } inside (hvs v hv hway) rfl hm hlength

/-- What a sweep leaves of a first node that is no element: the node, and there is nothing below it. -/
theorem SweptTo.leaf {vs : List (Visit σ)} {place : Nat} {way : List Nat} {n : Node} {rest rest' : List Node}
    (hn : n.elements = []) :
    SweptTo mark revise vs (place :: way) (nodeAt? (n :: rest) (0 :: way)) (nodeAt? (n :: rest') (0 :: way)) := by
  cases n with
  | element name attrs children => cases hn
  | text t => cases way with
    | nil => exact .text t
    | cons j way => exact .nothing
  | comment t => cases way with
    | nil => exact .comment t
    | cons j way => exact .nothing
  | doctype name => cases way with
    | nil => exact .doctype name
    | cons j way => exact .nothing

/-- What a sweep leaves inside a first node that is an element. -/
theorem SweptTo.below {vs vs' : List (Visit σ)} {place j : Nat} {way : List Nat} {name : ElementName} {attrs attrs' : Attrs}
    {children inside rest rest' : List Node}
    (h : SweptTo mark revise vs (j :: way) (nodeAt? children (j :: way)) (nodeAt? inside (j :: way)))
    (hvs : ∀ v ∈ vs, { v with way := place :: v.way } ∈ vs') :
    SweptTo mark revise vs' (place :: j :: way) (nodeAt? (.element name attrs children :: rest) (0 :: j :: way))
      (nodeAt? (.element name attrs' inside :: rest') (0 :: j :: way)) := by
  rw [nodeAt?_element, nodeAt?_element]
  exact h.moved fun v hv hway => hway ▸ hvs v hv

/-- What a sweep leaves of the nodes after the first. -/
theorem SweptTo.later {vs vs' : List (Visit σ)} {place i : Nat} {way : List Nat} {n n' : Node} {rest rest' : List Node}
    (h : SweptTo mark revise vs ((place + 1 + i) :: way) (nodeAt? rest (i :: way)) (nodeAt? rest' (i :: way)))
    (hvs : vs ⊆ vs') :
    SweptTo mark revise vs' ((place + (i + 1)) :: way) (nodeAt? (n :: rest) ((i + 1) :: way))
      (nodeAt? (n' :: rest') ((i + 1) :: way)) := by
  rw [nodeAt?_succ, nodeAt?_succ]
  rw [Nat.add_right_comm] at h
  exact h.moved fun v hv hway => hway ▸ hvs hv

/-- A place that is not inside an element whose text is replaced has what the sweep leaves there; the first of the nodes has the
place that is given. -/
theorem sweptTo_sweepAll_from {place i : Nat} {way : List Nat} {nodes : List Node} {s : σ}
    (h : ∀ v ∈ visitsFrom revise (placedFrom mark place nodes) s, (revise v.element v.state).1.text ≠ none →
      ¬IsInside v.way ((place + i) :: way)) :
    SweptTo mark revise (visitsFrom revise (placedFrom mark place nodes) s) ((place + i) :: way) (nodeAt? nodes (i :: way))
      (nodeAt? (sweepAll mark revise nodes s).1 (i :: way)) := by
  induction nodes using forest_induction generalizing place i way s with
  | nil => cases way <;> simpa [sweepAll, nodeAt?] using SweptTo.nothing
  | element name attrs children rest ihc ihr =>
    have hchildren := fun {j way s} => @ihc 0 j way s
    simp only [Nat.zero_add] at hchildren
    rw [visitsFrom_element] at h ⊢
    rw [sweepAll_element]
    by_cases hm : attrs.has mark = true
    · simp only [hm, if_true, List.cons_append, List.forall_mem_cons, List.forall_mem_append, List.forall_mem_map] at h ⊢
      obtain ⟨hself, hin, hafter⟩ := h
      cases i with
      | zero => cases way with
        | nil => exact .visited ⟨[place], ⟨name, attrs, children⟩, s⟩ _ List.mem_cons_self rfl hm (length_sweepAll _ _)
        | cons j way =>
          -- text in place of the children would leave nothing here
          have hnone : (revise ⟨name, attrs, children⟩ s).1.text = none :=
            Classical.not_not.1 fun hsome => hself hsome (isInside_singleton place j way)
          rw [Revision.inside, hnone]
          have hbelow := hchildren fun v hv hsome hv' => hin v hv hsome (isInside_cons_iff.2 hv')
          exact hbelow.below fun v hv => List.mem_cons_of_mem _ (List.mem_append_left _ (List.mem_map_of_mem hv))
      | succ i =>
        refine (ihr fun v hv => ?_).later fun v hv => List.mem_cons_of_mem _ (List.mem_append_right _ hv)
        rw [Nat.add_right_comm]
        exact hafter v hv
    · simp only [hm, if_false, Bool.false_eq_true, List.forall_mem_append, List.forall_mem_map] at h ⊢
      obtain ⟨hin, hafter⟩ := h
      cases i with
      | zero => cases way with
        | nil => exact .plain _ (by simpa using hm) (length_sweepAll _ _)
        | cons j way =>
          have hbelow := hchildren fun v hv hsome hv' => hin v hv hsome (isInside_cons_iff.2 hv')
          exact hbelow.below fun v hv => List.mem_append_left _ (List.mem_map_of_mem hv)
      | succ i =>
        refine (ihr fun v hv => ?_).later fun v hv => List.mem_append_right _ hv
        rw [Nat.add_right_comm]
        exact hafter v hv
  | text t rest ih =>
    cases i with
    | zero => exact SweptTo.leaf rfl
    | succ i => exact (ih fun v hv => by rw [Nat.add_right_comm]; exact h v hv).later (List.Subset.refl _)
  | comment t rest ih =>
    cases i with
    | zero => exact SweptTo.leaf rfl
    | succ i => exact (ih fun v hv => by rw [Nat.add_right_comm]; exact h v hv).later (List.Subset.refl _)
  | doctype name rest ih =>
    cases i with
    | zero => exact SweptTo.leaf rfl
    | succ i => exact (ih fun v hv => by rw [Nat.add_right_comm]; exact h v hv).later (List.Subset.refl _)

/-- What a sweep leaves at each place that is not inside an element whose text it replaces. -/
theorem sweptTo_sweepAll {way : List Nat} {nodes : List Node} {s : σ}
    (h : ∀ v ∈ visits mark revise nodes s, (revise v.element v.state).1.text ≠ none → ¬IsInside v.way way) :
    SweptTo mark revise (visits mark revise nodes s) way (nodeAt? nodes way) (nodeAt? (sweepAll mark revise nodes s).1 way) := by
  cases way with
  | nil => exact .nothing
  | cons i way =>
    have hswept := @sweptTo_sweepAll_from σ mark revise 0 i way nodes s
    rw [Nat.zero_add] at hswept
    exact hswept h

section

variable {nodes : List Node} {s : σ} {v : Visit σ}

/-- A visited element is annotated. -/
theorem has_of_mem_visits (hv : v ∈ visits mark revise nodes s) : v.element.attrs.has mark = true := by
  have hmem := List.mem_map_of_mem (f := Visit.element) hv
  rw [map_element_visits] at hmem
  exact (List.mem_filter.1 hmem).2

/-- A visited element is at its place. -/
theorem nodeAt?_of_mem_visits (hv : v ∈ visits mark revise nodes s) : nodeAt? nodes v.way = some v.element.node := by
  have hplaced : (v.way, v.element) ∈ placedFrom mark 0 nodes := by
    rw [← map_visitsFrom revise (placedFrom mark 0 nodes) s]
    exact List.mem_map_of_mem (f := fun v => (v.way, v.element)) hv
  obtain ⟨i, way, hway, hat⟩ := exists_of_mem_placedFrom hplaced
  have hplace : v.way = i :: way := by rw [← Nat.zero_add i, ← hway]
  rw [hplace, hat]

/-- A visited element that is not inside one whose text is replaced is still at its place after the sweep, revised as its visit
says. -/
theorem nodeAt?_sweepAll_of_mem_visits (hv : v ∈ visits mark revise nodes s)
    (h : ∀ u ∈ visits mark revise nodes s, (revise u.element u.state).1.text ≠ none → ¬IsInside u.way v.way) :
    ∃ inside : List Node, inside.length = v.element.children.length ∧
      nodeAt? (sweepAll mark revise nodes s).1 v.way =
        some (.element v.element.name (revise v.element v.state).1.attrs ((revise v.element v.state).1.inside inside)) := by
  have hswept := sweptTo_sweepAll h
  rw [nodeAt?_of_mem_visits hv] at hswept
  generalize nodeAt? (sweepAll mark revise nodes s).1 v.way = after at hswept ⊢
  generalize hnode : v.element.node = before at hswept
  cases hswept with
  | text t => cases hnode
  | comment t => cases hnode
  | doctype name => cases hnode
  | plain inside hm hlength =>
    cases hnode
    rw [has_of_mem_visits hv] at hm
    cases hm
  | visited u inside hu hway hm hlength =>
    obtain rfl : u = v := List.inj_on_of_nodup_map (nodup_visits mark revise nodes s) hu hv hway
    exact ⟨inside, hlength, rfl⟩

end

end

end Node

end LocalePages
