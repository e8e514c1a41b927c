import LocalePages.Proofs.Turns
import LocalePages.Proofs.Visits

/-!
# What localizing leaves alone

Only what is annotated is touched. Where a tag for the text of an element is written, the text takes the place of all that was
inside, and outside such elements every node is where it was (`Localization.localize_keeps`): texts, comments, the doctype and
elements that are not annotated are what they were, and of an annotated element only the marker and the attributes that its
written tags name can be another or new. This holds for every nesting, also where a visited element is no longer in the page.
-/

namespace LocalePages

/-! ## Attributes -/

/-- Whether an attribute is an ordinary one that a keyword names. -/
def Attr.isNamedIn (ks : List Keyword) (a : Attr) : Bool := a.space == .none && ks.contains (.attribute a.name)

namespace Attrs

/-- Attributes are what others were but for those that keywords name, which can have another value or be new. Those that were there
are in the order they were in; a new one stands at its place in the order of names, which need not be the last. -/
structure SameBut (ks : List Keyword) (before after : Attrs) : Prop where
  others : after.filter (fun a => !a.isNamedIn ks) = before.filter fun a => !a.isNamedIn ks
  order : (before.map fun a => (a.space, a.name)).Sublist (after.map fun a => (a.space, a.name))

namespace SameBut

variable {ks : List Keyword} {before after last : Attrs}

theorem refl (ks : List Keyword) (attrs : Attrs) : SameBut ks attrs attrs := ⟨rfl, List.Sublist.refl _⟩

theorem trans (h : SameBut ks before after) (h' : SameBut ks after last) : SameBut ks before last :=
  ⟨h'.others.trans h.others, h.order.trans h'.order⟩

/-- Only the attribute that is set can be another or new. -/
theorem set {name : Text} (h : .attribute name ∈ ks) (attrs : Attrs) (value : Text) : SameBut ks attrs (attrs.set name value) := by
  have hnamed : Attr.isNamedIn ks ⟨.none, name, value⟩ = true := by simpa [Attr.isNamedIn] using h
  induction attrs with
  | nil => exact ⟨by simp [Attrs.set, put, hnamed], List.nil_sublist _⟩
  | cons c rest ih =>
    rw [set_cons]
    split
    · rename_i hc
      have hcnamed : c.isNamedIn ks = true := by simpa [Attr.isNamedIn, hc] using h
      refine ⟨by simp [hnamed, hcnamed], ?_⟩
      rw [List.map_cons, List.map_cons, hc.1, hc.2]
    · split
      · exact ⟨by simp [hnamed], (List.Sublist.refl _).cons _⟩
      · exact ⟨by simp only [List.filter_cons, ih.others], ih.order.cons_cons _⟩

end SameBut

end Attrs

/-! ## Runs of writes -/

/-- A run of writes has a last value for exactly the keywords that it writes. -/
theorem lastWrite?_ne_none_iff {ws : Writes} {k : Keyword} : lastWrite? ws k ≠ none ↔ k ∈ ws.map Prod.fst := by
  simp [lastWrite?, List.mem_map]

/-- A run of writes touches the attributes that it writes. -/
theorem Revision.sameBut_writeAll {ks : List Keyword} (r : Revision) (ws : Writes) (h : ws.map Prod.fst ⊆ ks) :
    r.attrs.SameBut ks (r.writeAll ws).attrs := by
  induction ws generalizing r with
  | nil => exact Attrs.SameBut.refl ks r.attrs
  | cons w ws ih =>
    obtain ⟨k, value⟩ := w
    rw [List.map_cons, List.cons_subset] at h
    have hfirst : r.attrs.SameBut ks (r.write k value).attrs := by
      rcases k with _ | name
      · exact Attrs.SameBut.refl ks r.attrs
      · exact Attrs.SameBut.set h.1 r.attrs value
    exact hfirst.trans (ih (r.write k value) h.2)

namespace Localization

/-! ## An element -/

/-- The keywords of the tags that are written when an element is localized, in order. -/
def writtenBy (mark : Text) (s : Setting) (v : Node.Visit Progress) : List Keyword :=
  (writesOf mark s v.element v.state).map Prod.fst

section

variable (mark : Text) (s : Setting) (v : Node.Visit Progress)

/-- Text takes the place of what is inside an element exactly when a tag for its text is written. -/
theorem text_localizeElement_ne_none_iff :
    (localizeElement mark s v.element v.state).1.text ≠ none ↔ .text ∈ writtenBy mark s v := by
  rw [localizeElement_fst, writtenBy, ← lastWrite?_ne_none_iff]
  simp [Revision.setMarker, Revision.text_writeAll, Revision.keep]

/-- The attributes of an element that is localized are what they were but for the marker and those that written tags name. -/
theorem sameBut_localizeElement :
    v.element.attrs.SameBut (.attribute mark :: writtenBy mark s v) (localizeElement mark s v.element v.state).1.attrs := by
  rw [localizeElement_fst]
  have hwritten := Revision.sameBut_writeAll (Revision.keep v.element) (writesOf mark s v.element v.state)
    (List.subset_cons_self (.attribute mark) (writtenBy mark s v))
  exact hwritten.trans (Attrs.SameBut.set List.mem_cons_self _ _)

end

/-! ## A page -/

/-- What localizing, whose visits are given, may leave of the node at the end of a way. -/
inductive KeptAt (mark : Text) (s : Setting) (vs : List (Node.Visit Progress)) (way : List Nat) : Option Node → Option Node → Prop
  /-- Where there was nothing there is nothing. -/
  | nothing : KeptAt mark s vs way none none
  | text (t : Text) : KeptAt mark s vs way (some (.text t)) (some (.text t))
  | comment (t : Text) : KeptAt mark s vs way (some (.comment t)) (some (.comment t))
  | doctype (name : Text) : KeptAt mark s vs way (some (.doctype name)) (some (.doctype name))
  /-- An element that is not annotated is what it was, with as many nodes in it. -/
  | plain {name : ElementName} {attrs : Attrs} {children inside : List Node} :
      attrs.has mark = false → inside.length = children.length →
      KeptAt mark s vs way (some (.element name attrs children)) (some (.element name attrs inside))
  /-- An annotated element for whose text no tag is written has as many nodes in it, and only its marker and the attributes that its
  written tags name can be others or new. -/
  | annotated {v : Node.Visit Progress} {attrs : Attrs} {inside : List Node} :
      v ∈ vs → v.way = way → .text ∉ writtenBy mark s v →
      v.element.attrs.SameBut (.attribute mark :: writtenBy mark s v) attrs → inside.length = v.element.children.length →
      KeptAt mark s vs way (some v.element.node) (some (.element v.element.name attrs inside))
  /-- An annotated element for whose text a tag is written has a single text in it. -/
  | replaced {v : Node.Visit Progress} {attrs : Attrs} {t : Text} :
      v ∈ vs → v.way = way → .text ∈ writtenBy mark s v →
      v.element.attrs.SameBut (.attribute mark :: writtenBy mark s v) attrs →
      KeptAt mark s vs way (some v.element.node) (some (.element v.element.name attrs [.text t]))

/-- Localizing a page comes once to each annotated element, in order. It leaves, at every place that is not inside an element for
whose text a tag is written, what was there, up to markers and what the tags write. -/
theorem localize_keeps (mark domain : Text) (lookup : CatalogLookup) (locale : Locale) (d : Document) (dictionary : Dictionary)
    (log : Log) :
    let s := settingFor lookup domain locale d
    let vs := Node.visits mark (localizeElement mark s) d.nodes ⟨dictionary, log, []⟩
    vs.map Node.Visit.element = d.annotated mark ∧ (vs.map Node.Visit.way).Nodup ∧
      ∀ way, (∀ v ∈ vs, .text ∈ writtenBy mark s v → ¬Node.IsInside v.way way) →
        KeptAt mark s vs way (Node.nodeAt? d.nodes way)
          (Node.nodeAt? (localize ⟨mark, false⟩ lookup domain locale d dictionary log).1.nodes way) := by
  intro s vs
  refine ⟨Node.map_element_visits _ _ _ _, Node.nodup_visits _ _ _ _, fun way hout => ?_⟩
  have hswept : Node.SweptTo mark (localizeElement mark s) vs way (Node.nodeAt? d.nodes way)
      (Node.nodeAt? (localize ⟨mark, false⟩ lookup domain locale d dictionary log).1.nodes way) :=
    Node.sweptTo_sweepAll fun v hv htext => hout v hv ((text_localizeElement_ne_none_iff mark s v).1 htext)
  generalize Node.nodeAt? d.nodes way = before at hswept ⊢
  generalize Node.nodeAt? (localize ⟨mark, false⟩ lookup domain locale d dictionary log).1.nodes way = after at hswept ⊢
  cases hswept with
  | nothing => exact .nothing
  | text t => exact .text t
  | comment t => exact .comment t
  | doctype name => exact .doctype name
  | plain inside hm hlength => exact .plain hm hlength
  | visited v inside hv hway hm hlength =>
    have hattrs := sameBut_localizeElement mark s v
    have htext := text_localizeElement_ne_none_iff mark s v
    cases hrevision : (localizeElement mark s v.element v.state).1.text with
    | none =>
      rw [Revision.inside, hrevision]
      exact .annotated hv hway (mt htext.2 (not_not_intro hrevision)) hattrs hlength
    | some t =>
      rw [Revision.inside, hrevision]
      exact .replaced hv hway (htext.1 (by rw [hrevision]; exact Option.some_ne_none t)) hattrs

namespace OwnedTextWitness

/-- A page with an element whose text is translated, with another one inside it, one whose attribute is, and a comment. -/
def page : Document :=
  ⟨[.element (.html "p") [⟨.none, "gettext", ".#f7ff9e"⟩]
      [.text "Hello ", .element (.html "b") [⟨.none, "gettext", "title"⟩] [.text "you"]],
    .element (.html "input") [⟨.none, "gettext", "title#f7ff9e"⟩, ⟨.none, "type", "text"⟩] [],
    .comment "end"], none⟩

/-- A dictionary that knows the text of the page. -/
def dictionary : Dictionary := ⟨[(⟨"app", "f7ff9e"⟩, "Hello")]⟩

/-- A catalog with a translation for every text. -/
def lookup : CatalogLookup := fun _ _ _ => "Ahoj"

/-- The locale of the catalog. -/
def locale : Locale := ⟨"cs", none, "CZ", [], none⟩

/-- What the page is localized with. -/
def setting : Setting := settingFor lookup "app" locale page

/-- The visits on localizing the page. -/
def visits : List (Node.Visit Progress) :=
  Node.visits "gettext" (localizeElement "gettext" setting) page.nodes ⟨dictionary, .empty, []⟩

end OwnedTextWitness

open OwnedTextWitness in
/-- The second element of the page of `OwnedTextWitness` is not inside the first, whose text is written, and is kept. -/
theorem localize_keeps_second :
    (∀ v ∈ visits, .text ∈ writtenBy "gettext" setting v → ¬Node.IsInside v.way [1]) ∧
      KeptAt "gettext" setting visits [1] (Node.nodeAt? page.nodes [1])
        (Node.nodeAt? (localize ⟨"gettext", false⟩ lookup "app" locale page dictionary .empty).1.nodes [1]) := by
  have hout : ∀ v ∈ visits, .text ∈ writtenBy "gettext" setting v → ¬Node.IsInside v.way [1] := by decide +kernel
  exact ⟨hout, (localize_keeps "gettext" "app" lookup locale page dictionary .empty).2.2 [1] hout⟩

end Localization

end LocalePages
