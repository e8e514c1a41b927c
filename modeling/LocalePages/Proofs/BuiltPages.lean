import LocalePages.Proofs.Building
import LocalePages.Proofs.CharsetDeclarations
import LocalePages.Proofs.UntouchedNodes

/-!
# What a built page has in common with its source

Building writes into markers and may declare a character set, and nothing else (`Template.build_sameButMarks`). Node by node, the page
that was built is the page it was built from, or that page with one declaration more, but for the values of markers
(`Node.SameButMarks`). These have no part in what declares a character set, so that building the page again would declare nothing.
-/

namespace LocalePages

/-! ## Attributes -/

/-- Attributes are what others were but for the value of one that is there. Attributes in the order of their names, as an element keeps
them, have the same names in the same places. -/
structure Attrs.SameButValue (name : Text) (before after : Attrs) : Prop extends before.SameBut [.attribute name] after where
  there : before.has name = true
  kept : after.has name = true
  names : before.Pairwise (fun a b => a.before b = true) → after.map (fun a => (a.space, a.name)) = before.map fun a => (a.space, a.name)

namespace Attrs

/-- An attribute that is there gets another value, and nothing else is changed. -/
theorem sameButValue_set {attrs : Attrs} {name : Text} (h : attrs.has name = true) (value : Text) :
    attrs.SameButValue name (attrs.set name value) := by
  refine ⟨SameBut.set List.mem_cons_self attrs value, h, by rw [has_eq_isSome_get?, get?_set_self]; rfl, fun hordered => ?_⟩
  rw [has_eq_isSome_get?] at h
  induction attrs with
  | nil => cases h
  | cons c rest ih =>
    obtain ⟨hfirst, hrest⟩ := List.pairwise_cons.1 hordered
    rw [get?_cons] at h
    rw [set_cons]
    by_cases hname : c.space = .none ∧ c.name = name
    · rw [if_pos hname, List.map_cons, List.map_cons, hname.1, hname.2]
    · rw [if_neg hname] at h ⊢
      -- the attribute is among the later ones, so that its name does not come before that of the first one
      have hlater : Attr.before ⟨.none, name, value⟩ c = false := by
        obtain ⟨found, hfound⟩ := Option.isSome_iff_exists.1 h
        obtain ⟨a, ha, -⟩ := Option.map_eq_some_iff.1 hfound
        have hsame : a.space = .none ∧ a.name = name := by simpa using List.find?_some ha
        have hbefore := Attr.before_iff.1 (hfirst a (List.mem_of_find?_eq_some ha))
        have hkey : a.key = Attr.key ⟨.none, name, value⟩ := by rw [Attr.key, Attr.key, hsame.1, hsame.2]
        rw [hkey] at hbefore
        exact Bool.eq_false_iff.2 fun hfalse => absurd (Attr.before_iff.1 hfalse) hbefore.not_gt
      rw [if_neg (by simp [hlater]), List.map_cons, List.map_cons, ih h hrest]

/-- Where only one value is another, the others are found as they were. -/
theorem SameBut.get?_eq {before after : Attrs} {name other : Text} (h : before.SameBut [.attribute name] after) (hne : other ≠ name) :
    after.get? other = before.get? other := by
  have hothers : ∀ attrs : Attrs, attrs.find? other = Attrs.find? (attrs.filter fun a => !a.isNamedIn [.attribute name]) other := by
    intro attrs
    rw [Attrs.find?, Attrs.find?, List.find?_filter]
    congr 1
    funext a
    by_cases ha : a.name = other <;> simp [Attr.isNamedIn, ha, hne, Bool.beq_eq_decide_eq]
  rw [get?, get?, hothers after, hothers before, h.others]

end Attrs

/-! ## Nodes -/

/-- Nodes are what others were but for the values of markers. -/
inductive Node.SameButMarks (mark : Text) : List Node → List Node → Prop
  | nil : SameButMarks mark [] []
  | plain {name : ElementName} {attrs : Attrs} {children children' rest rest' : List Node} : attrs.has mark = false →
      SameButMarks mark children children' → SameButMarks mark rest rest' →
      SameButMarks mark (.element name attrs children :: rest) (.element name attrs children' :: rest')
  | annotated {name : ElementName} {attrs attrs' : Attrs} {children children' rest rest' : List Node} :
      attrs.SameButValue mark attrs' → SameButMarks mark children children' → SameButMarks mark rest rest' →
      SameButMarks mark (.element name attrs children :: rest) (.element name attrs' children' :: rest')
  | text {t : Text} {rest rest' : List Node} : SameButMarks mark rest rest' → SameButMarks mark (.text t :: rest) (.text t :: rest')
  | comment {t : Text} {rest rest' : List Node} : SameButMarks mark rest rest' →
      SameButMarks mark (.comment t :: rest) (.comment t :: rest')
  | doctype {name : Text} {rest rest' : List Node} : SameButMarks mark rest rest' →
      SameButMarks mark (.doctype name :: rest) (.doctype name :: rest')

namespace Node

variable {mark : Text}

/-- Building nodes changes only the values of markers. -/
theorem sameButMarks_built (mark : Text) (nodes : List Node) :
    SameButMarks mark nodes (revisedAll mark (Template.builtRevision mark) nodes) := by
  induction nodes using forest_induction with
  | nil => exact .nil
  | element name attrs children rest ihc ihr =>
    rw [revisedAll_element, Element.revised]
    split
    · rename_i hmark
      exact .annotated (Attrs.sameButValue_set hmark _) ihc ihr
    · rename_i hmark
      exact .plain (by simpa using hmark) ihc ihr
  | text t rest ih => exact .text ih
  | comment t rest ih => exact .comment ih
  | doctype name rest ih => exact .doctype ih

/-- Where only values of markers are others, there are the same elements of a kind that does not depend on markers. -/
theorem SameButMarks.exists_iff {P : Element → Prop} {nodes nodes' : List Node} (h : SameButMarks mark nodes nodes')
    (hP : ∀ e e' : Element, e'.name = e.name → (∀ other ≠ mark, e'.attrs.get? other = e.attrs.get? other) → (P e ↔ P e')) :
    (∃ e ∈ elementsAll nodes, P e) ↔ ∃ e ∈ elementsAll nodes', P e := by
  have helement : ∀ {e e' : Element} {rest rest' : List Node}, (P e ↔ P e') →
      ((∃ f ∈ elementsAll e.children, P f) ↔ ∃ f ∈ elementsAll e'.children, P f) →
      ((∃ f ∈ elementsAll rest, P f) ↔ ∃ f ∈ elementsAll rest', P f) →
      ((∃ f ∈ elementsAll (e.node :: rest), P f) ↔ ∃ f ∈ elementsAll (e'.node :: rest'), P f) := by
    intro e e' rest rest' hfirst hchildren hrest
    simp only [elementsAll, Element.node, elements, List.cons_append, List.mem_cons, List.mem_append, or_and_right, exists_or,
      exists_eq_left, hfirst, hchildren, hrest]
  induction h with
  | nil => exact Iff.rfl
  | @plain name attrs children children' rest rest' _ _ _ ihc ihr =>
    have hfirst := hP ⟨name, attrs, children⟩ ⟨name, attrs, children'⟩ rfl fun _ _ => rfl
    exact helement hfirst ihc ihr
  | @annotated name attrs attrs' children children' rest rest' hattrs _ _ ihc ihr =>
    have hfirst := hP ⟨name, attrs, children⟩ ⟨name, attrs', children'⟩ rfl fun _ hne => hattrs.toSameBut.get?_eq hne
    exact helement hfirst ihc ihr
  | text _ ih => exact ih
  | comment _ ih => exact ih
  | doctype _ ih => exact ih

end Node

/-! ## Pages -/

/-- Where only values of markers are others, and markers are not what declares a character set, pages need a declaration alike. -/
theorem Document.needsCharset_iff_of_sameButMarks {mark : Text} (hcharset : mark ≠ "charset") (hcontent : mark ≠ "content")
    {d d' : Document} (h : Node.SameButMarks mark d.nodes d'.nodes) : d.NeedsCharset ↔ d'.NeedsCharset := by
  have hhead := h.exists_iff (P := fun e => e.name.tag = "head") fun e e' hname _ => by rw [hname]
  have hdeclares := h.exists_iff (P := Element.DeclaresCharset) fun e e' hname hattrs => by
    rw [Element.DeclaresCharset, Element.DeclaresCharset, Attrs.has_eq_isSome_get?, Attrs.has_eq_isSome_get?, hname,
      hattrs _ hcharset.symm, hattrs _ hcontent.symm]
  exact ⟨fun hneeds => ⟨hhead.1 hneeds.head, mt hdeclares.2 hneeds.undeclared⟩,
    fun hneeds => ⟨hhead.2 hneeds.head, mt hdeclares.1 hneeds.undeclared⟩⟩

namespace Template

/-- Building declares a character set at the end of the first head when it is asked to and the page needs it, and changes nothing else
but the values of markers. Where markers are not what declares a character set, a page that was built with a declaration needs none. -/
theorem build_sameButMarks {mark : Text} (hcharset : mark ≠ "charset") (hcontent : mark ≠ "content") (charset : Bool)
    (domain : Text) (d : Document) (log : Log) :
    ∃ nodes, (charset = true ∧ d.NeedsCharset → Node.AppendedTo "head" Document.charsetMeta d.nodes nodes) ∧
      (¬(charset = true ∧ d.NeedsCharset) → nodes = d.nodes) ∧
      Node.SameButMarks mark nodes (build ⟨mark, charset⟩ domain d log).1.document.nodes ∧
      (build ⟨mark, charset⟩ domain d log).1.document.path = d.path ∧
      (charset = true → Scanner.prepare ⟨mark, true⟩ (build ⟨mark, charset⟩ domain d log).1.document =
        (build ⟨mark, charset⟩ domain d log).1.document) := by
  have hbuilt : (build ⟨mark, charset⟩ domain d log).1.document =
      (Scanner.prepare ⟨mark, charset⟩ d).revised mark (builtRevision mark) :=
    build_document mark domain (Scanner.prepare ⟨mark, charset⟩ d) log
  have hsame := Node.sameButMarks_built mark (Scanner.prepare ⟨mark, charset⟩ d).nodes
  rw [hbuilt]
  refine ⟨(Scanner.prepare ⟨mark, charset⟩ d).nodes, ?_, ?_, hsame, ?_, ?_⟩
  · rintro ⟨rfl, hneeds⟩
    exact Document.appendedTo_withCharset hneeds
  · intro hnot
    cases charset with
    | false => rfl
    | true => exact congrArg Document.nodes (Document.withCharset_of_not_needsCharset fun hneeds => hnot ⟨rfl, hneeds⟩)
  · cases charset with
    | false => rfl
    | true => exact d.path_withCharset
  · rintro rfl
    refine Document.withCharset_of_not_needsCharset ?_
    rw [← Document.needsCharset_iff_of_sameButMarks hcharset hcontent hsame]
    exact d.not_needsCharset_withCharset

namespace UndeclaredWitness

/-- A page with two heads and no declaration, a marker with a tag for itself, and one inside another. -/
def page : Document :=
  ⟨[.doctype "html", .element (.html "html") [⟨.none, "gettext", "."⟩]
    [.element (.html "head") [] [.element (.html "title") [⟨.none, "gettext", ". gettext"⟩, ⟨.none, "id", "t"⟩] [.text "Hello"]],
      .element (.html "head") [] [.comment "charset=UTF-8"]]], none⟩

/-- The page as it is built. -/
def built : Document := (build ⟨"gettext", true⟩ "app" page .empty).1.document

end UndeclaredWitness

open UndeclaredWitness in
/-- The page of `UndeclaredWitness` gets a declaration when it is built, and no second one. -/
theorem build_sameButMarks_undeclared :
    (∃ nodes, Node.AppendedTo "head" Document.charsetMeta page.nodes nodes ∧ Node.SameButMarks "gettext" nodes built.nodes) ∧
      Scanner.prepare ⟨"gettext", true⟩ built = built := by
  unfold built
  have hneeds : page.NeedsCharset := by decide +kernel
  obtain ⟨nodes, happended, -, hsame, -, hagain⟩ :=
    build_sameButMarks (by decide : ("gettext" : Text) ≠ "charset") (by decide) true "app" page .empty
  exact ⟨⟨nodes, happended ⟨rfl, hneeds⟩, hsame⟩, hagain rfl⟩

end Template

end LocalePages
