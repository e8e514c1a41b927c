import LocalePages.Proofs.Sweeps
import LocalePages.Proofs.Texts
import Mathlib.Data.List.Infix

/-!
# Declarations of a character set

A document needs a declaration of its character set when it has a head and none of its elements declares one
(`Document.NeedsCharset`). Then it gets one more node, at the end of its first head (`Document.appendedTo_withCharset`), and otherwise
it stays as it is. Afterwards it needs none, so that a document gets no second one (`Document.not_needsCharset_withCharset`).
-/

namespace LocalePages

/-- An element declares a character set: it is a `meta` element that has the attribute `charset`, or `charset=` somewhere in its
content, in capitals or small letters. -/
def Element.DeclaresCharset (e : Element) : Prop :=
  e.name.tag = "meta" ∧ (e.attrs.has "charset" = true ∨
    ∃ content part, e.attrs.get? "content" = some content ∧ part <:+: content ∧ Text.lower part = "charset=")

/-- Declarations of a character set are recognized. -/
theorem Document.declaresCharset_iff {e : Element} : declaresCharset e = true ↔ e.DeclaresCharset := by
  have hcontent : ∀ content : Text, Text.holds "charset=" (Text.lower content) = true ↔
      ∃ part, part <:+: content ∧ Text.lower part = "charset=" := by
    intro content
    rw [Text.holds_iff, Text.lower, List.infix_map_iff]
    exact ⟨fun ⟨part, hpart, hsame⟩ => ⟨part, hpart, hsame.symm⟩, fun ⟨part, hpart, hsame⟩ => ⟨part, hpart, hsame.symm⟩⟩
  rw [declaresCharset, Element.DeclaresCharset, Bool.and_eq_true, Bool.or_eq_true, beq_iff_eq]
  refine and_congr_right fun _ => or_congr_right ?_
  cases e.attrs.get? "content" with
  | none => exact iff_of_false (by decide) (by rintro ⟨content, part, hnone, -⟩; cases hnone)
  | some content =>
    refine (hcontent content).trans ⟨fun ⟨part, hpart⟩ => ⟨content, part, rfl, hpart⟩, ?_⟩
    rintro ⟨_, part, hsame, hpart⟩
    cases hsame
    exact ⟨part, hpart⟩

/-! ## Appending -/

namespace Node

/-- Nodes are what others were, with one more node as the last child of the first element of a name. -/
inductive AppendedTo (tag : Text) (new : Node) : List Node → List Node → Prop
  /-- The first node is an element of the name. -/
  | here {name : ElementName} {attrs : Attrs} {children rest : List Node} : name.tag = tag →
      AppendedTo tag new (.element name attrs children :: rest) (.element name attrs (children ++ [new]) :: rest)
  /-- There is one inside the first node, which is an element of another name. -/
  | inside {name : ElementName} {attrs : Attrs} {children children' rest : List Node} : name.tag ≠ tag →
      AppendedTo tag new children children' →
      AppendedTo tag new (.element name attrs children :: rest) (.element name attrs children' :: rest)
  /-- There is none before those after the first node. -/
  | later {n : Node} {rest rest' : List Node} : (∀ e ∈ n.elements, e.name.tag ≠ tag) → AppendedTo tag new rest rest' →
      AppendedTo tag new (n :: rest) (n :: rest')

variable {tag : Text} {new : Node}

/-- Nodes get no more node exactly when they have no element of the name. -/
theorem appendToAll?_eq_none_iff {nodes : List Node} :
    appendToAll? tag new nodes = none ↔ ∀ e ∈ elementsAll nodes, e.name.tag ≠ tag := by
  induction nodes using forest_induction with
  | nil => exact ⟨fun _ e he => absurd he List.not_mem_nil, fun _ => rfl⟩
  | element name attrs children rest ihc ihr =>
    rw [appendToAll?, appendTo?, elementsAll, elements, List.cons_append, List.forall_mem_cons, List.forall_mem_append, ← ihc, ← ihr]
    by_cases htag : name.tag = tag
    · simp [htag]
    · cases appendToAll? tag new children <;> simp [htag]
  | text t rest ih => exact Option.map_eq_none_iff.trans ih
  | comment t rest ih => exact Option.map_eq_none_iff.trans ih
  | doctype name rest ih => exact Option.map_eq_none_iff.trans ih

/-- A node gets no more node exactly when it has no element of the name. -/
theorem appendTo?_eq_none_iff {n : Node} : appendTo? tag new n = none ↔ ∀ e ∈ n.elements, e.name.tag ≠ tag := by
  have hsingle : appendToAll? tag new [n] = none ↔ ∀ e ∈ elementsAll [n], e.name.tag ≠ tag := appendToAll?_eq_none_iff
  rw [elementsAll, elementsAll, List.append_nil] at hsingle
  rw [← hsingle, appendToAll?]
  cases appendTo? tag new n <;> simp [appendToAll?]

/-- Nodes get one more at the end of the first element of the name. -/
theorem appendedTo_of_appendToAll? {nodes nodes' : List Node} (h : appendToAll? tag new nodes = some nodes') :
    AppendedTo tag new nodes nodes' := by
  have hlater : ∀ {n : Node} {rest nodes' : List Node}, appendTo? tag new n = none →
      (∀ {rest'}, appendToAll? tag new rest = some rest' → AppendedTo tag new rest rest') →
      appendToAll? tag new (n :: rest) = some nodes' → AppendedTo tag new (n :: rest) nodes' := by
    intro n rest nodes' hn ih h
    rw [appendToAll?, hn] at h
    obtain ⟨rest', hrest, rfl⟩ := Option.map_eq_some_iff.1 h
    exact .later (appendTo?_eq_none_iff.1 hn) (ih hrest)
  induction nodes using forest_induction generalizing nodes' with
  | nil => cases h
  | element name attrs children rest ihc ihr =>
    cases hput : appendTo? tag new (.element name attrs children) with
    | none => exact hlater hput ihr h
    | some n =>
      rw [appendToAll?, hput] at h
      cases h
      rw [appendTo?] at hput
      split at hput
      · rename_i htag
        cases hput
        exact .here htag
      · rename_i htag
        obtain ⟨children', hchildren, rfl⟩ := Option.map_eq_some_iff.1 hput
        exact .inside htag (ihc hchildren)
  | text t rest ih => exact hlater rfl ih h
  | comment t rest ih => exact hlater rfl ih h
  | doctype name rest ih => exact hlater rfl ih h

/-- The elements of nodes after others come after theirs. -/
theorem elementsAll_append (nodes more : List Node) : elementsAll (nodes ++ more) = elementsAll nodes ++ elementsAll more := by
  induction nodes with
  | nil => rfl
  | cons n rest ih => rw [List.cons_append, elementsAll, elementsAll, ih, List.append_assoc]

/-- The elements of a node that was put among others are there. -/
theorem AppendedTo.mem_elementsAll {nodes nodes' : List Node} (h : AppendedTo tag new nodes nodes') {e : Element}
    (he : e ∈ new.elements) : e ∈ elementsAll nodes' := by
  induction h with
  | @here name attrs children rest htag =>
    have hnew : e ∈ elementsAll [new] := List.mem_append_left _ he
    rw [elementsAll, elements, elementsAll_append]
    exact List.mem_append_left _ (List.mem_cons_of_mem _ (List.mem_append_right _ hnew))
  | inside _ _ ih => exact List.mem_append_left _ (List.mem_cons_of_mem _ ih)
  | later _ _ ih => exact List.mem_append_right _ ih

end Node

/-! ## Documents -/

namespace Document

variable {d : Document}

/-- A document needs a declaration of its character set: it has a head to put it in, and no element that declares one. -/
structure NeedsCharset (d : Document) : Prop where
  head : ∃ e ∈ d.elements, e.name.tag = "head"
  undeclared : ¬∃ e ∈ d.elements, e.DeclaresCharset

/-- A document gets no declaration exactly when it needs none. -/
theorem withCharset?_eq_none_iff : d.withCharset? = none ↔ ¬d.NeedsCharset := by
  rw [withCharset?]
  split
  · rename_i hany
    obtain ⟨e, he, hdeclares⟩ := List.any_eq_true.1 hany
    exact iff_of_true rfl fun h => h.undeclared ⟨e, he, declaresCharset_iff.1 hdeclares⟩
  · rename_i hany
    rw [Option.map_eq_none_iff, Node.appendToAll?_eq_none_iff]
    constructor
    · rintro hhead ⟨⟨e, he, hname⟩, -⟩
      exact hhead e he hname
    · intro hneeds e he hname
      refine hneeds ⟨⟨e, he, hname⟩, fun ⟨f, hf, hdeclares⟩ => hany ?_⟩
      exact List.any_eq_true.2 ⟨f, hf, declaresCharset_iff.2 hdeclares⟩

/-- Whether a document needs a declaration is found by giving it one. -/
instance (d : Document) : Decidable d.NeedsCharset :=
  decidable_of_iff (d.withCharset?.isSome = true) (by rw [Option.isSome_iff_ne_none, Ne, withCharset?_eq_none_iff, not_not])

/-- A document that needs no declaration stays as it is. -/
theorem withCharset_of_not_needsCharset (h : ¬d.NeedsCharset) : d.withCharset = d := by
  rw [withCharset, withCharset?_eq_none_iff.2 h, Option.getD_none]

/-- A document that needs a declaration gets it at the end of its first head, and nothing else. -/
theorem appendedTo_withCharset (h : d.NeedsCharset) : Node.AppendedTo "head" charsetMeta d.nodes d.withCharset.nodes := by
  obtain ⟨d', hd'⟩ := Option.ne_none_iff_exists'.1 (mt withCharset?_eq_none_iff.1 (not_not_intro h))
  rw [withCharset, hd', Option.getD_some]
  rw [withCharset?] at hd'
  split at hd'
  · cases hd'
  · obtain ⟨nodes, hnodes, rfl⟩ := Option.map_eq_some_iff.1 hd'
    exact Node.appendedTo_of_appendToAll? hnodes

/-- A document needs no second declaration. -/
theorem not_needsCharset_withCharset (d : Document) : ¬d.withCharset.NeedsCharset := by
  by_cases h : d.NeedsCharset
  · intro hneeds
    have hthere : ⟨.html "meta", [⟨.none, "charset", "UTF-8"⟩], []⟩ ∈ d.withCharset.elements :=
      (appendedTo_withCharset h).mem_elementsAll List.mem_cons_self
    exact hneeds.undeclared ⟨_, hthere, declaresCharset_iff.1 (by decide)⟩
  · rwa [withCharset_of_not_needsCharset h]

/-- A declaration does not change where a document comes from. -/
theorem path_withCharset (d : Document) : d.withCharset.path = d.path := by
  rw [withCharset, withCharset?]
  split
  · rfl
  · cases Node.appendToAll? "head" charsetMeta d.nodes <;> rfl

end Document

end LocalePages
