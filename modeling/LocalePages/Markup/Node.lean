import LocalePages.Text.Basic

/-!
# The tree of a page

A node has no identity of its own: two documents are the same when their trees are. An element's attributes are kept in the
order of their names, since that is the order they are written in, and each name occurs once.

A page as it was read differs from a document in one point: a template keeps what stands inside it apart from its children
(`ParsedNode`). A document has it among them (`ParsedNode.inlined`).
-/

namespace LocalePages

/-- The vocabularies that an element can belong to. -/
inductive Space where
  | html | mathml | svg
  deriving DecidableEq, Repr

/-- The vocabularies that an attribute can belong to. An ordinary attribute belongs to none. -/
inductive AttrSpace where
  | none | xlink | xmlns | xml
  deriving DecidableEq, Repr

/-- The name of an element. -/
structure ElementName where
  space : Space
  tag : Text
  deriving DecidableEq, Repr

/-- An attribute. -/
structure Attr where
  space : AttrSpace
  name : Text
  value : Text
  deriving DecidableEq, Repr

/-- The place of a vocabulary in the order of attributes. -/
def AttrSpace.rank : AttrSpace → Nat
  | none => 0
  | xlink => 1
  | xmlns => 2
  | xml => 3

/-- Whether two attributes have one name. -/
def Attr.sameName (a b : Attr) : Bool := a.space == b.space && a.name == b.name

/-- Whether the name of an attribute comes before the name of another. -/
def Attr.before (a b : Attr) : Bool :=
  a.space.rank < b.space.rank || (a.space.rank == b.space.rank && decide (a.name < b.name))

/-- The attributes of an element. -/
abbrev Attrs := List Attr

namespace Attrs

/-- Attributes with one more at its place, in place of the one with its name. -/
def put (attrs : Attrs) (a : Attr) : Attrs :=
  match attrs with
  | [] => [a]
  | b :: rest => if a.sameName b then a :: rest else if a.before b then a :: b :: rest else b :: put rest a

/-- The attribute that is found under a plain name. -/
def find? (attrs : Attrs) (name : Text) : Option Attr := List.find? (fun a => a.space == .none && a.name == name) attrs

/-- The value of an ordinary attribute. -/
def get? (attrs : Attrs) (name : Text) : Option Text := (attrs.find? name).map Attr.value

/-- Whether there is an ordinary attribute of a name. -/
def has (attrs : Attrs) (name : Text) : Bool := (attrs.find? name).isSome

/-- Gives an ordinary attribute a value. -/
def set (attrs : Attrs) (name value : Text) : Attrs := attrs.put ⟨.none, name, value⟩

/-- Attributes in order, from any list of attributes with different names. -/
def ofList (attrs : List Attr) : Attrs := attrs.foldl put []

/-- Attributes with those of a list that are not there yet. -/
def addMissing (attrs : Attrs) (more : List Attr) : Attrs :=
  more.foldl (fun attrs a => if attrs.any a.sameName then attrs else attrs.put a) attrs

end Attrs

/-- A node of a document. -/
inductive Node where
  | element (name : ElementName) (attrs : Attrs) (children : List Node)
  | text (t : Text)
  | comment (t : Text)
  | doctype (name : Text)
  deriving Repr

/-- A node of a page as it was read. `contents` is what a template holds apart from its children. -/
inductive ParsedNode where
  | element (name : ElementName) (attrs : Attrs) (children contents : List ParsedNode)
  | text (t : Text)
  | comment (t : Text)
  | doctype (name : Text)
  deriving Repr

mutual

/-- The node with what its templates hold as their last children. -/
def ParsedNode.inlined : ParsedNode → Node
  | .element name attrs children contents => .element name attrs (inlinedAll children ++ inlinedAll contents)
  | .text t => .text t
  | .comment t => .comment t
  | .doctype name => .doctype name

/-- The nodes with what their templates hold as the templates' last children. -/
def ParsedNode.inlinedAll : List ParsedNode → List Node
  | [] => []
  | n :: rest => n.inlined :: inlinedAll rest

end

mutual

/-- The text of a node: all characters in it, in order, without comments. -/
def Node.textContents : Node → Text
  | .element _ _ children => textContentsAll children
  | .text t => t
  | .comment _ => []
  | .doctype _ => []

/-- The text of nodes, one after the other. -/
def Node.textContentsAll : List Node → Text
  | [] => []
  | n :: rest => n.textContents ++ textContentsAll rest

end

mutual

/-- Decides whether two nodes are the same. -/
def Node.decEq : (m n : Node) → Decidable (m = n)
  | .element name attrs children, .element name' attrs' children' =>
    match decEqAll children children' with
    | .isTrue h => decidable_of_iff (name = name' ∧ attrs = attrs') (by simp [h])
    | .isFalse h => .isFalse (by simp [h])
  | .text t, .text u => decidable_of_iff (t = u) (by simp)
  | .comment t, .comment u => decidable_of_iff (t = u) (by simp)
  | .doctype name, .doctype name' => decidable_of_iff (name = name') (by simp)
  | .element _ _ _, .text _ | .element _ _ _, .comment _ | .element _ _ _, .doctype _ => .isFalse nofun
  | .text _, .element _ _ _ | .text _, .comment _ | .text _, .doctype _ => .isFalse nofun
  | .comment _, .element _ _ _ | .comment _, .text _ | .comment _, .doctype _ => .isFalse nofun
  | .doctype _, .element _ _ _ | .doctype _, .text _ | .doctype _, .comment _ => .isFalse nofun

/-- Decides whether two lists of nodes are the same. -/
def Node.decEqAll : (ms ns : List Node) → Decidable (ms = ns)
  | [], [] => .isTrue rfl
  | [], _ :: _ => .isFalse nofun
  | _ :: _, [] => .isFalse nofun
  | m :: ms, n :: ns =>
    match decEq m n with
    | .isTrue h =>
      match decEqAll ms ns with
      | .isTrue hs => .isTrue (by rw [h, hs])
      | .isFalse hs => .isFalse (by simp [hs])
    | .isFalse h => .isFalse (by simp [h])

end

instance : DecidableEq Node := Node.decEq

end LocalePages
