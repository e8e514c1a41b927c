import LocalePages.Page.Synthesis
import LocalePages.Proofs.CharsetDeclarations
import LocalePages.Proofs.Elements

/-!
# The mode of a page

What the mode elements of a page say, in order, is `Node.modeValues`, and the mode marker is the first value in it. Giving a page a
mode gives it to all of them, and declaring a character set adds none (`Document.mode_setMode`, `Document.modeMarker_withCharset`).
Localizing keeps the mode of a page when its mode elements stand aside of what is localized (`Document.ModeAside`,
`Localization.modeMarker_localize`): a tag can write to every attribute of its element, and text takes the place of every
element inside.
-/

namespace LocalePages

namespace Node

/-- What the mode elements among nodes say, in order. -/
def modeValues (nodes : List Node) : List (Option Text) :=
  ((elementsAll nodes).filter fun e => Document.holdsMode e.name e.attrs).map fun e => e.attrs.get? "content"

/-- What an element, the nodes inside it and the nodes after it say. -/
theorem modeValues_element (name : ElementName) (attrs : Attrs) (children rest : List Node) :
    modeValues (.element name attrs children :: rest) =
      (if Document.holdsMode name attrs then [attrs.get? "content"] else []) ++ modeValues children ++ modeValues rest := by
  unfold modeValues
  rw [elementsAll, elements]
  split <;> rename_i h <;> simp [h]

/-- Nodes after others say something after them. -/
theorem modeValues_append (nodes more : List Node) : modeValues (nodes ++ more) = modeValues nodes ++ modeValues more := by
  simp only [modeValues, elementsAll_append, List.filter_append, List.map_append]

/-- An element that is no `meta` element holds no mode, whatever its attributes are. -/
theorem holdsMode_of_ne {name : ElementName} (h : name.tag ≠ "meta") (attrs : Attrs) : Document.holdsMode name attrs = false := by
  rw [Document.holdsMode, beq_false_of_ne h, Bool.false_and]

/-- A sweep keeps what mode elements say when no annotated element is a `meta` element or has a mode element inside. -/
theorem modeValues_sweepAll {σ : Type} {mark : Text} {revise : Element → σ → Revision × σ} {nodes : List Node}
    (h : ∀ e ∈ annotatedAll mark nodes, e.name.tag ≠ "meta" ∧ modeValues e.children = []) (s : σ) :
    modeValues (sweepAll mark revise nodes s).1 = modeValues nodes := by
  induction nodes using forest_induction generalizing s with
  | nil => rfl
  | element name attrs children rest ihc ihr =>
    simp only [annotatedAll_element, List.mem_append] at h
    replace ihc := ihc fun e he => h e (Or.inl (Or.inr he))
    replace ihr := ihr fun e he => h e (Or.inr he)
    rw [sweepAll_element]
    by_cases hm : attrs.has mark = true
    · obtain ⟨hname, hnone⟩ := h ⟨name, attrs, children⟩ (Or.inl (Or.inl (by simp [hm])))
      simp only [hm, if_true, modeValues_element, holdsMode_of_ne hname, Bool.false_eq_true, if_false, List.nil_append, ihr]
      unfold Revision.inside
      -- text in place of mode elements would lose them, but there are none
      split
      · rw [hnone]
        rfl
      · rw [ihc]
    · simp only [hm, if_false, Bool.false_eq_true, modeValues_element, ihc, ihr]
  | text t rest ih => exact ih h s
  | comment t rest ih => exact ih h s
  | doctype name rest ih => exact ih h s

/-- A node that says nothing can be put into an element. -/
theorem AppendedTo.modeValues_eq {tag : Text} {new : Node} {nodes nodes' : List Node} (h : AppendedTo tag new nodes nodes')
    (hnew : modeValues [new] = []) : modeValues nodes' = modeValues nodes := by
  induction h with
  | here _ => simp only [modeValues_element, modeValues_append, hnew, List.append_nil]
  | inside _ _ ih => simp only [modeValues_element, ih]
  | @later n rest rest' _ _ ih =>
    have happend := modeValues_append [n] rest'
    rw [ih, ← modeValues_append] at happend
    exact happend

/-- Giving mode elements another mode leaves them mode elements. -/
theorem modeValues_setMode (mode : Text) (nodes : List Node) :
    modeValues (mapAttrsAll (fun name attrs => if Document.holdsMode name attrs then attrs.set "content" mode else attrs) nodes) =
      (modeValues nodes).map fun _ => some mode := by
  have hname : ("content" : Text) ≠ "name" := by decide
  induction nodes using forest_induction with
  | nil => rfl
  | element name attrs children rest ihc ihr =>
    rw [mapAttrsAll, mapAttrs, modeValues_element, modeValues_element, ihc, ihr]
    by_cases hmode : Document.holdsMode name attrs = true
    · have hkept : Document.holdsMode name (attrs.set "content" mode) = true := by
        rw [← hmode, Document.holdsMode, Document.holdsMode, Attrs.get?_set_of_ne _ _ hname.symm]
      simp only [hmode, if_true, hkept, Attrs.get?_set_self, List.map_append, List.map_cons, List.map_nil]
    · simp only [hmode, if_false, Bool.false_eq_true, List.map_append, List.map_nil]
  | text t rest ih => exact ih
  | comment t rest ih => exact ih
  | doctype name rest ih => exact ih

end Node

namespace Document

/-- The mode elements of a page stand aside of what is localized: no annotated element is a `meta` element or has one of them
inside. -/
def ModeAside (mark : Text) (d : Document) : Prop :=
  ∀ e ∈ d.annotated mark, e.name.tag ≠ "meta" ∧ Node.modeValues e.children = []

instance (mark : Text) (d : Document) : Decidable (d.ModeAside mark) :=
  inferInstanceAs (Decidable (∀ e ∈ d.annotated mark, _))

/-- The mode marker is the first value that a mode element has. -/
theorem modeMarker_eq (d : Document) : d.modeMarker = (Node.modeValues d.nodes).findSome? id := by
  rw [Node.modeValues, List.findSome?_map]
  rfl

/-- Documents with the same nodes have the same mode. -/
theorem mode_congr {d d' : Document} (h : d.nodes = d'.nodes) : d.mode = d'.mode := by
  rw [mode, mode, modeMarker_eq, modeMarker_eq, h]

/-- There are as many values as mode elements. -/
theorem length_modeValues (d : Document) : (Node.modeValues d.nodes).length = d.modeCount := by
  rw [Node.modeValues, List.length_map, modeCount, List.countP_eq_length_filter]
  rfl

/-- A page with a mode element has the mode that it was given. -/
theorem mode_setMode {d : Document} (h : d.modeCount ≠ 0) (m : PageMode) : (d.setMode m).mode = some m := by
  rw [← length_modeValues] at h
  obtain ⟨value, rest, hvalues⟩ := List.exists_cons_of_ne_nil (List.ne_nil_of_length_pos (Nat.pos_of_ne_zero h))
  have hmarker : (d.setMode m).modeMarker = some m.written := by
    rw [modeMarker_eq, setMode, Node.modeValues_setMode, hvalues]
    rfl
  rw [mode, hmarker]
  cases m <;> decide

/-- A declaration of the character set is no mode element. -/
theorem modeMarker_withCharset (d : Document) : d.withCharset.modeMarker = d.modeMarker := by
  by_cases hneeds : d.NeedsCharset
  · have hnone : Node.modeValues [charsetMeta] = [] := by decide
    rw [modeMarker_eq, modeMarker_eq, (appendedTo_withCharset hneeds).modeValues_eq hnone]
  · rw [withCharset_of_not_needsCharset hneeds]

end Document

namespace Localization

/-- Localizing keeps the mode marker of a page whose mode elements stand aside of what is localized. -/
theorem modeMarker_localize (scanner : Scanner) (lookup : CatalogLookup) (domain : Text) (locale : Locale) {d : Document}
    (dictionary : Dictionary) (log : Log) (h : (scanner.prepare d).ModeAside scanner.mark) :
    (localize scanner lookup domain locale d dictionary log).1.modeMarker = d.modeMarker := by
  have hprepared : (scanner.prepare d).modeMarker = d.modeMarker := by
    unfold Scanner.prepare
    split
    · exact d.modeMarker_withCharset
    · rfl
  rw [← hprepared, Document.modeMarker_eq, Document.modeMarker_eq]
  exact congrArg _ (Node.modeValues_sweepAll h _)

end Localization

end LocalePages
