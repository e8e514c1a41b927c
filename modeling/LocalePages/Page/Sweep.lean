import LocalePages.Markup.Document

/-!
# Sweeps over the annotated elements of a document

What is done to the annotated elements of a document is done to one after the other, in document order, with a state that goes
along (`Node.sweep`). An element is revised before those inside it. When its text is replaced, the elements that were inside it
are out of the document, but they are still visited, because what is said of them counts.
-/

namespace LocalePages

/-- What becomes of an element: its attributes, and the text that takes the place of its children, if any does. -/
structure Revision where
  attrs : Attrs
  text : Option Text
  deriving DecidableEq, Repr

namespace Revision

/-- No change. -/
def keep (e : Element) : Revision := ⟨e.attrs, none⟩

/-- The element with the revision made. -/
def apply (r : Revision) (e : Element) : Element :=
  ⟨e.name, r.attrs, match r.text with
    | some t => [.text t]
    | none => e.children⟩

/-- The revision that also replaces what a tag with this keyword is about. -/
def write (r : Revision) (k : Keyword) (value : Text) : Revision :=
  match k with
  | .text => { r with text := some value }
  | .attribute name => { r with attrs := r.attrs.set name value }

/-- The revision that also gives the marker a value. -/
def setMarker (r : Revision) (mark value : Text) : Revision := { r with attrs := r.attrs.set mark value }

end Revision

namespace Node

variable {σ : Type}

mutual

/-- Revises the annotated elements of a node. -/
def sweep (mark : Text) (revise : Element → σ → Revision × σ) : Node → σ → Node × σ
  | .element name attrs children, s =>
    if attrs.has mark then
      let (r, s) := revise ⟨name, attrs, children⟩ s
      let (inside, s) := sweepAll mark revise children s
      match r.text with
      | some t => (.element name r.attrs [.text t], s)
      | none => (.element name r.attrs inside, s)
    else
      let (inside, s) := sweepAll mark revise children s
      (.element name attrs inside, s)
  | n, s => (n, s)

/-- Revises the annotated elements of nodes, in order. -/
def sweepAll (mark : Text) (revise : Element → σ → Revision × σ) : List Node → σ → List Node × σ
  | [], s => ([], s)
  | n :: rest, s =>
    let (n, s) := sweep mark revise n s
    let (rest, s) := sweepAll mark revise rest s
    (n :: rest, s)

end

end Node

end LocalePages
