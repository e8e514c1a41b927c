import LocalePages.Tag
import LocalePages.Markup.Construction.Page
import LocalePages.Markup.Serialize

/-!
# Documents

A document is a page as a tree, with the path it came from for diagnostics. Only three things in it mean anything here: its mode,
which a `meta` element named `gettext` holds, its declaration of a character set, and its annotated elements. Everything else is
written back as it was read.
-/

namespace LocalePages

/-- The name of the `meta` elements that hold the mode. -/
def modeName : Text := "gettext"

/-- What a page is: a source that others are made from, a page that is generated anew on every run, or a generated page whose own
changes are kept. -/
inductive PageMode where
  | translate
  | replace
  | cherryPick
  deriving DecidableEq, Repr

namespace PageMode

/-- A mode as it is written. -/
def written : PageMode → Text
  | translate => "translate"
  | replace => "replace"
  | cherryPick => "cherry-pick"

/-- Reads a mode. What is no mode is given back without white space at its ends. -/
def parse (t : Text) : Except Text PageMode :=
  let t := t.trim
  if t = "translate" then .ok .translate
  else if t = "replace" then .ok .replace
  else if t = "cherry-pick" then .ok .cherryPick
  else .error t

end PageMode

/-- An element with what is in it. -/
structure Element where
  name : ElementName
  attrs : Attrs
  children : List Node

namespace Element

/-- The element as a node. -/
def node (e : Element) : Node := .element e.name e.attrs e.children

/-- The value of its marker, the attribute of this name. -/
def marker (e : Element) (mark : Text) : Text := (e.attrs.get? mark).getD []

/-- Gives its marker a value. -/
def setMarker (e : Element) (mark value : Text) : Element := { e with attrs := e.attrs.set mark value }

/-- The marker as it stands in the page. -/
def markerSource (e : Element) (mark : Text) : Text := mark ++ "=\"" ++ e.marker mark ++ "\""

/-- What a tag with this keyword is about. An attribute that is not there has the empty value. -/
def bound (e : Element) : Keyword → Text
  | .text => Node.textContentsAll e.children
  | .attribute name => (e.attrs.get? name).getD []

/-- What a tag with this keyword is about, in canonical form. -/
def canonical (e : Element) (k : Keyword) : Text := Text.canonical (e.bound k)

/-- Replaces what a tag with this keyword is about. Text takes the place of all children. -/
def write (e : Element) (k : Keyword) (value : Text) : Element :=
  match k with
  | .text => { e with children := [.text value] }
  | .attribute name => { e with attrs := e.attrs.set name value }

/-- The element as it is written. -/
def outerHtml (e : Element) : Text := e.node.written .outside

end Element

namespace Node

mutual

/-- The elements in a node, each before those inside it. -/
def elements : Node → List Element
  | .element name attrs children => ⟨name, attrs, children⟩ :: elementsAll children
  | _ => []

/-- The elements in nodes, in order. -/
def elementsAll : List Node → List Element
  | [] => []
  | n :: rest => n.elements ++ elementsAll rest

end

mutual

/-- Changes the attributes of all elements in a node. -/
def mapAttrs (f : ElementName → Attrs → Attrs) : Node → Node
  | .element name attrs children => .element name (f name attrs) (mapAttrsAll f children)
  | n => n

/-- Changes the attributes of all elements in nodes. -/
def mapAttrsAll (f : ElementName → Attrs → Attrs) : List Node → List Node
  | [] => []
  | n :: rest => n.mapAttrs f :: mapAttrsAll f rest

end

mutual

/-- Puts a node at the end of the first element of a name; none when there is no such element. -/
def appendTo? (tag : Text) (new : Node) : Node → Option Node
  | .element name attrs children =>
    if name.tag = tag then some (.element name attrs (children ++ [new]))
    else (appendToAll? tag new children).map (.element name attrs)
  | _ => none

/-- Puts a node at the end of the first element of a name among nodes. -/
def appendToAll? (tag : Text) (new : Node) : List Node → Option (List Node)
  | [] => none
  | n :: rest =>
    match appendTo? tag new n with
    | some n => some (n :: rest)
    | none => (appendToAll? tag new rest).map (n :: ·)

end

end Node

/-- A page as a tree, with the path it came from. -/
structure Document where
  nodes : List Node
  path : Option Text
  deriving DecidableEq

namespace Document

/-- Reads a page. What templates hold is among their children. -/
def parse (page : Text) : Document := ⟨ParsedNode.inlinedAll (readPage page), none⟩

/-- The document as a page. -/
def toHtml (d : Document) : Text := Node.writtenAll .outside d.nodes

/-- The document with another path. -/
def withPath (d : Document) (path : Text) : Document := { d with path := some path }

/-- How diagnostics call the document. -/
def displayName (d : Document) : Text := d.path.getD "<document>"

/-- A copy of the document: what is read when it is written. -/
def copy (d : Document) : Document := { parse d.toHtml with path := d.path }

/-- The elements of the document, in order. -/
def elements (d : Document) : List Element := Node.elementsAll d.nodes

/-- Whether an element with these attributes holds the mode of its page. -/
def holdsMode (name : ElementName) (attrs : Attrs) : Bool :=
  name.tag == "meta" && match attrs.get? "name" with
    | some value => Text.sameIgnoringCase value modeName
    | none => false

/-- The mode as the page has it: the first one that is given. -/
def modeMarker (d : Document) : Option Text :=
  (d.elements.filter fun e => holdsMode e.name e.attrs).findSome? fun e => e.attrs.get? "content"

/-- The mode, when there is one and it can be read. -/
def mode (d : Document) : Option PageMode := d.modeMarker.bind fun t => (PageMode.parse t).toOption

/-- Gives all elements that hold the mode another one. -/
def setMode (d : Document) (m : PageMode) : Document :=
  { d with nodes := Node.mapAttrsAll (fun name attrs =>
      if holdsMode name attrs then attrs.set "content" m.written else attrs) d.nodes }

/-- How many elements hold the mode. -/
def modeCount (d : Document) : Nat := d.elements.countP fun e => holdsMode e.name e.attrs

/-- Whether an element declares the character set of its page. -/
def declaresCharset (e : Element) : Bool :=
  e.name.tag == "meta" && (e.attrs.has "charset" || match e.attrs.get? "content" with
    | some content => Text.holds "charset=" (Text.lower content)
    | none => false)

/-- The element that declares UTF-8. -/
def charsetMeta : Node := .element (.html "meta") [⟨.none, "charset", "UTF-8"⟩] []

/-- The document with a declaration of its character set at the end of the first head; none when it has a declaration already or
no head to put it in. -/
def withCharset? (d : Document) : Option Document :=
  if d.elements.any declaresCharset then none
  else (Node.appendToAll? "head" charsetMeta d.nodes).map fun nodes => { d with nodes }

/-- The document with a declaration of its character set where there can be one. -/
def withCharset (d : Document) : Document := d.withCharset?.getD d

/-- The annotated elements, in order. -/
def annotated (d : Document) (mark : Text) : List Element := d.elements.filter fun e => e.attrs.has mark

end Document

end LocalePages
