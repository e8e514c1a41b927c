import LocalePages.Markup.Node

/-!
# Nodes under construction

While a page is read, its nodes are moved about, so here they have an identity: a node is its place in the arena. A node knows
its parent and its children, and putting a node somewhere takes it away from where it was. Text that is put next to text joins
it. When the page is read, the arena is turned into a tree.
-/

namespace LocalePages

/-- What a node is. `contents` is the root of what a template holds, and a text stands with its end first, so that it is made longer
without being copied. -/
inductive Shape where
  | root
  | element (name : ElementName) (attrs : Attrs) (contents : Option Nat)
  | text (reversed : Text)
  | comment (t : Text)
  | doctype (name : Text)

/-- A node and its place among the others. The last of its children stands first, since most nodes are put at the end. -/
structure Cell where
  shape : Shape
  parent : Option Nat
  lastFirst : List Nat

/-- The children of a node, in order. -/
def Cell.children (c : Cell) : List Nat := c.lastFirst.reverse

/-- The nodes of a page. The first one is the document. -/
abbrev Arena := Array Cell

namespace Arena

/-- The arena of an empty document. -/
def empty : Arena := #[⟨.root, none, []⟩]

/-- The place of the document. -/
def document : Nat := 0

/-- The node at a place. -/
def cell (a : Arena) (i : Nat) : Cell := a.getD i ⟨.root, none, []⟩

/-- The name of the element at a place. -/
def nameOf? (a : Arena) (i : Nat) : Option ElementName :=
  match (a.cell i).shape with
  | .element name _ _ => some name
  | _ => none

/-- Changes the node at a place. -/
def change (a : Arena) (i : Nat) (f : Cell → Cell) : Arena := a.setIfInBounds i (f (a.cell i))

/-- The arena with a new node, which is nowhere yet, and its place. -/
def add (a : Arena) (shape : Shape) : Arena × Nat := (a.push ⟨shape, none, []⟩, a.size)

/-- The arena with a new element, and its place. A template gets a root for what it will hold. -/
def addElement (a : Arena) (name : ElementName) (attrs : List Attr) : Arena × Nat :=
  if name = ⟨.html, "template"⟩ then
    let (a, contents) := a.add .root
    a.add (.element name (Attrs.ofList attrs) (some contents))
  else a.add (.element name (Attrs.ofList attrs) none)

/-- Takes a node away from its parent. -/
def detach (a : Arena) (i : Nat) : Arena :=
  match (a.cell i).parent with
  | none => a
  | some p => (a.change p fun c => { c with lastFirst := c.lastFirst.filter (· != i) }).change i fun c => { c with parent := none }

/-- Makes a node the last child of another. -/
def append (a : Arena) (parent child : Nat) : Arena :=
  ((a.detach child).change parent fun c => { c with lastFirst := child :: c.lastFirst }).change child
    fun c => { c with parent := some parent }

/-- Puts a node before one that has a parent. -/
def insertBefore (a : Arena) (sibling child : Nat) : Arena :=
  match (a.cell sibling).parent with
  | none => a
  | some p =>
    ((a.detach child).change p fun c =>
      { c with lastFirst := c.lastFirst.flatMap fun i => if i = sibling then [i, child] else [i] }).change child
        fun c => { c with parent := some p }

/-- Whether there is a text at a place. -/
def isText (a : Arena) (i : Nat) : Bool :=
  match (a.cell i).shape with
  | .text _ => true
  | _ => false

/-- Lengthens the text at a place. -/
def lengthen (a : Arena) (i : Nat) (t : Text) : Arena :=
  a.change i fun c =>
    match c.shape with
    | .text reversed => { c with shape := .text (t.reverseAux reversed) }
    | _ => c

/-- Makes text the last thing in a node. -/
def appendText (a : Arena) (parent : Nat) (t : Text) : Arena :=
  match (a.cell parent).lastFirst.head?.filter a.isText with
  | some i => a.lengthen i t
  | none =>
    let (a, child) := a.add (.text t.reverse)
    a.append parent child

/-- Puts text before a node that has a parent. -/
def insertTextBefore (a : Arena) (sibling : Nat) (t : Text) : Arena :=
  let siblings := match (a.cell sibling).parent with
    | some p => (a.cell p).lastFirst
    | none => []
  match ((siblings.dropWhile (· != sibling)).drop 1).head?.filter a.isText with
  | some i => a.lengthen i t
  | none =>
    let (a, child) := a.add (.text t.reverse)
    a.insertBefore sibling child

/-- Moves the children of a node to the end of another's. -/
def moveChildren (a : Arena) (source target : Nat) : Arena := (a.cell source).children.foldl (fun a i => a.append target i) a

/-- Gives an element the attributes that it does not have yet. -/
def addMissingAttrs (a : Arena) (i : Nat) (more : List Attr) : Arena :=
  a.change i fun c =>
    match c.shape with
    | .element name attrs contents => { c with shape := .element name (attrs.addMissing more) contents }
    | _ => c

/-- The nodes at some places as trees; `depth` is at least the height of the trees. -/
def trees (a : Arena) : Nat → List Nat → List ParsedNode
  | 0, _ => []
  | depth + 1, places => places.filterMap fun i =>
    let c := a.cell i
    match c.shape with
    | .root => none
    | .element name attrs contents =>
      let inside := match contents with
        | some root => a.trees depth (a.cell root).children
        | none => []
      some (.element name attrs (a.trees depth c.children) inside)
    | .text reversed => some (.text reversed.reverse)
    | .comment t => some (.comment t)
    | .doctype name => some (.doctype name)

/-- The document as a tree. -/
def toParsed (a : Arena) : List ParsedNode := a.trees (a.size + 1) (a.cell document).children

end Arena

end LocalePages
