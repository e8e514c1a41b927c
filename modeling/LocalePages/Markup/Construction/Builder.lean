import LocalePages.Markup.Construction.Arena
import LocalePages.Markup.Construction.ElementClass
import LocalePages.Markup.Token

/-!
# A page under construction

Besides the nodes themselves a page under construction has a stack of open elements, the innermost first, and a list of the
formatting elements in force, the latest first: an element that was closed by another's end tag is opened again with what comes
next. The operations here are the ones that the rules for tags are made of. Markup of formatting that overlaps other elements is
untangled by `Builder.adopt`.
-/

namespace LocalePages

/-- What the next token is judged by. -/
inductive Mode where
  | initial | beforeHtml | beforeHead | inHead | afterHead | inBody | text | inTable | inTableText | inCaption | inColumnGroup
  | inTableBody | inRow | inCell | inSelect | inSelectInTable | inTemplate | afterBody | inFrameset | afterFrameset
  | afterAfterBody | afterAfterFrameset
  deriving DecidableEq, Repr

/-- An entry of the list of formatting: an element with the tag it was made from, or a border that formatting does not cross. -/
inductive Formatting where
  | border
  | element (node : Nat) (tag : StartTag)

/-- A page under construction. `back` is the mode to return to after text. `newlineDrops` tells that a line feed that comes next
is not part of the page, and `fosters` that what cannot be in a table is put before it. -/
structure Builder where
  arena : Arena
  mode : Mode
  back : Mode
  templates : List Mode
  tableText : List Text
  oldLayout : Bool
  stack : List Nat
  formatting : List Formatting
  head : Option Nat
  form : Option Nat
  framesAllowed : Bool
  newlineDrops : Bool
  fosters : Bool
  reading : Option Reading

/-- Where a node can be put. -/
inductive InsertionPoint where
  | lastIn (parent : Nat)
  | aroundTable (table above : Nat)

namespace Builder

/-- The start of a page. -/
def start : Builder :=
  { arena := .empty, mode := .initial, back := .initial, templates := [], tableText := [], oldLayout := false, stack := [],
    formatting := [], head := none, form := none, framesAllowed := true, newlineDrops := false, fosters := false, reading := none }

/-! ## The stack -/

/-- The name of an element; the document has none. -/
def nameOf (b : Builder) (i : Nat) : ElementName := (b.arena.nameOf? i).getD ⟨.html, []⟩

/-- The innermost open element. -/
def current (b : Builder) : Nat := b.stack.head?.getD Arena.document

/-- The name of the innermost open element. -/
def currentName (b : Builder) : ElementName := b.nameOf b.current

/-- Whether the innermost open element is one of some. -/
def currentIs (b : Builder) (tags : List Text) : Bool := b.currentName.isHtml tags

/-- Whether an element of a name is open anywhere. -/
def isOpen (b : Builder) (tag : Text) : Bool := b.stack.any fun i => (b.nameOf i).isHtml [tag]

/-- The outermost open element. -/
def root (b : Builder) : Nat := b.stack.getLast?.getD Arena.document

/-- The body, when it is the second outermost open element. -/
def body? (b : Builder) : Option Nat := (b.stack.reverse[1]?).filter fun i => (b.nameOf i).isHtml ["body"]

/-- Whether an element is found on a stack before one that ends the search. -/
def found (wanted ends : Nat → Bool) : List Nat → Bool
  | [] => false
  | i :: rest => wanted i || (!ends i && found wanted ends rest)

/-- Whether an open element is found before one of a class. -/
def inScope (b : Builder) (ends : ElementName → Bool) (wanted : ElementName → Bool) : Bool :=
  found (fun i => wanted (b.nameOf i)) (fun i => ends (b.nameOf i)) b.stack

/-- Whether an open element of a name is found by the search for most elements. -/
def scopeHas (b : Builder) (tag : Text) : Bool := b.inScope ElementName.endsScope (·.isHtml [tag])

/-- Whether a part of a table is found by the search for one. -/
def tableHas (b : Builder) (tag : Text) : Bool := b.inScope ElementName.endsTableScope (·.isHtml [tag])

/-- Closes the innermost open element. -/
def pop (b : Builder) : Builder := { b with stack := b.stack.drop 1 }

/-- Opens an element. -/
def push (b : Builder) (i : Nat) : Builder := { b with stack := i :: b.stack }

/-- Closes open elements up to and with the first of a class. -/
def popThrough (b : Builder) (wanted : ElementName → Bool) : Builder :=
  { b with stack := (b.stack.dropWhile fun i => !wanted (b.nameOf i)).drop 1 }

/-- Closes open elements up to and with the first of a name. -/
def popTag (b : Builder) (tag : Text) : Builder := b.popThrough (·.isHtml [tag])

/-- Closes open elements up to the first of some names. -/
def popTo (b : Builder) (tags : List Text) : Builder :=
  { b with stack := b.stack.dropWhile fun i => !(b.nameOf i).isHtml tags }

/-- Closes the innermost open elements of a class. -/
def popWhile (b : Builder) (p : ElementName → Bool) : Builder :=
  { b with stack := b.stack.dropWhile fun i => p (b.nameOf i) }

/-- Closes the innermost elements whose end tags may be left out. -/
def endSilently (b : Builder) : Builder := b.popWhile ElementName.endsSilently

/-- Closes the innermost elements whose end tags may be left out, but no element of one name. -/
def endSilentlyExcept (b : Builder) (tag : Text) : Builder := b.popWhile fun n => n.endsSilently && !n.isHtml [tag]

/-- Takes an element off the stack. -/
def unstack (b : Builder) (i : Nat) : Builder := { b with stack := b.stack.erase i }

/-! ## Putting nodes into the tree -/

/-- Where a node goes that belongs into an element, or into the innermost open one. What cannot be in a table goes before the
innermost open table, and what belongs into a template goes to what it holds. -/
def placeFor (b : Builder) (target : Option Nat) : InsertionPoint :=
  let inside (i : Nat) : InsertionPoint :=
    match (b.arena.cell i).shape with
    | .element _ _ (some contents) => .lastIn contents
    | _ => .lastIn i
  let rec foster : List Nat → InsertionPoint
    | [] => .lastIn b.root
    | i :: above =>
      if (b.nameOf i).isHtml ["template"] then inside i
      else if (b.nameOf i).isHtml ["table"] then .aroundTable i (above.head?.getD Arena.document)
      else foster above
  let target := target.getD b.current
  if b.fosters && (b.nameOf target).isHtml ["table", "tbody", "tfoot", "thead", "tr"] then foster b.stack else inside target

/-- Puts a node at a place. -/
def putAt (b : Builder) (place : InsertionPoint) (i : Nat) : Builder :=
  match place with
  | .lastIn parent => { b with arena := b.arena.append parent i }
  | .aroundTable table above =>
    if (b.arena.cell table).parent.isSome then { b with arena := b.arena.insertBefore table i }
    else { b with arena := b.arena.append above i }

/-- Puts text where it belongs. -/
def addText (b : Builder) (t : Text) : Builder :=
  match b.placeFor none with
  | .lastIn parent => { b with arena := b.arena.appendText parent t }
  | .aroundTable table above =>
    if (b.arena.cell table).parent.isSome then { b with arena := b.arena.insertTextBefore table t }
    else { b with arena := b.arena.appendText above t }

/-- Puts a comment where it belongs. -/
def addComment (b : Builder) (t : Text) : Builder :=
  let place := b.placeFor none
  let (arena, i) := b.arena.add (.comment t)
  { b with arena }.putAt place i

/-- Puts a comment at the end of a node. -/
def addCommentTo (b : Builder) (parent : Nat) (t : Text) : Builder :=
  let (arena, i) := b.arena.add (.comment t)
  { b with arena := arena.append parent i }

/-- Puts a new element where it belongs, and its place in the arena. -/
def addElement (b : Builder) (name : ElementName) (attrs : List Attr) : Builder × Nat :=
  let place := b.placeFor none
  let (arena, i) := b.arena.addElement name attrs
  ({ b with arena }.putAt place i, i)

/-- Adds and opens the element of a tag. -/
def openTag (b : Builder) (tag : StartTag) : Builder :=
  let (b, i) := b.addElement (.html tag.name) (plainAttrs tag.attrs)
  b.push i

/-- Adds the element of a tag and leaves it closed. -/
def addTag (b : Builder) (tag : StartTag) : Builder := (b.addElement (.html tag.name) (plainAttrs tag.attrs)).1

/-- Adds and opens an element that no tag stands for. -/
def openImplied (b : Builder) (tag : Text) : Builder := b.openTag ⟨tag, [], false⟩

/-- Adds and opens the outermost element. -/
def openRoot (b : Builder) (attrs : List (Text × Text)) : Builder :=
  let (arena, i) := b.arena.addElement (.html "html") (plainAttrs attrs)
  { b with arena := arena.append Arena.document i }.push i

/-- Adds and opens the element of a tag, and reads what follows as text. -/
def openText (b : Builder) (tag : StartTag) (reading : Reading) : Builder :=
  let b := b.openTag tag
  { b with back := b.mode, mode := .text, reading := some reading }

/-! ## Formatting -/

/-- The formatting that is in force up to the last border, the latest first. -/
def formattingHere (b : Builder) : List (Nat × StartTag) :=
  (b.formatting.takeWhile fun | .border => false | .element _ _ => true).filterMap fun
    | .border => none
    | .element i tag => some (i, tag)

/-- Whether an entry is that of an element. -/
def Formatting.isOf (node : Nat) : Formatting → Bool
  | .border => false
  | .element i _ => i == node

/-- Whether an element is in the list of formatting. -/
def isFormatting (b : Builder) (node : Nat) : Bool := b.formatting.any (Formatting.isOf node)

/-- Takes an element off the list of formatting. -/
def unformat (b : Builder) (node : Nat) : Builder := { b with formatting := b.formatting.eraseP (Formatting.isOf node) }

/-- Sets a border. -/
def addBorder (b : Builder) : Builder := { b with formatting := .border :: b.formatting }

/-- Takes the formatting up to and with the last border off the list. -/
def clearToBorder (b : Builder) : Builder :=
  { b with formatting := (b.formatting.dropWhile fun | .border => false | .element _ _ => true).drop 1 }

/-- Whether two tags are the same but for the order of their attributes. -/
def sameTag (s t : StartTag) : Bool :=
  s.name == t.name && s.attrs.length == t.attrs.length && s.attrs.all t.attrs.contains

/-- Adds and opens a formatting element. Of four that are the same the earliest is no longer in force. -/
def openFormatting (b : Builder) (tag : StartTag) : Builder :=
  let same := b.formattingHere.filter fun (_, t) => sameTag tag t
  let b := if same.length ≥ 3 then (match same.getLast? with | some (i, _) => b.unformat i | none => b) else b
  let (b, i) := b.addElement (.html tag.name) (plainAttrs tag.attrs)
  { b with formatting := .element i tag :: b.formatting }.push i

/-- Whether an entry needs no opening: it is a border or its element is open. -/
def isSettled (b : Builder) : Formatting → Bool
  | .border => true
  | .element i _ => b.stack.contains i

/-- Opens the formatting again that is in force but closed, the earliest first. -/
def reopenFormatting (b : Builder) : Builder :=
  let closed := b.formatting.takeWhile fun e => !b.isSettled e
  let settled := b.formatting.dropWhile fun e => !b.isSettled e
  closed.reverse.foldl (fun b entry =>
    match entry with
    | .border => b
    | .element _ tag =>
      let (b, i) := b.addElement (.html tag.name) (plainAttrs tag.attrs)
      { b with formatting := .element i tag :: b.formatting }.push i) { b with formatting := settled }

/-! ## Closing elements -/

/-- Closes the paragraph that is open. -/
def closeParagraph (b : Builder) : Builder := (b.endSilentlyExcept "p").popTag "p"

/-- Whether a paragraph is found by the search for one. -/
def inParagraph (b : Builder) : Bool := b.inScope ElementName.endsButtonScope (·.isHtml ["p"])

/-- Closes the paragraph if one is open. -/
def leaveParagraph (b : Builder) : Builder := if b.inParagraph then b.closeParagraph else b

/-- Closes the cell that is open. -/
def closeCell (b : Builder) : Builder := (b.endSilently.popThrough (·.isHtml ["td", "th"])).clearToBorder

/-- What an end tag without a rule of its own does: it closes its element, unless a special one is in between. -/
def closeAny (b : Builder) (tag : Text) : Builder :=
  let inside := b.stack.takeWhile fun i => !(b.nameOf i).isHtml [tag] && !(b.nameOf i).isSpecial
  match b.stack.drop inside.length with
  | [] => b
  | i :: below => if (b.nameOf i).isHtml [tag] then { b with stack := below } else b

/-- The mode that the open elements ask for. -/
def modeOf (b : Builder) : Mode :=
  let rec go : List Nat → Mode
    | [] => .inBody
    | i :: below =>
      let n := b.nameOf i
      if n.isHtml ["select"] then
        match (below.map b.nameOf).find? (·.isHtml ["template", "table"]) with
        | some n => if n.isHtml ["table"] then .inSelectInTable else .inSelect
        | none => .inSelect
      else if n.isHtml ["td", "th"] && !below.isEmpty then .inCell
      else if n.isHtml ["tr"] then .inRow
      else if n.isHtml ["tbody", "thead", "tfoot"] then .inTableBody
      else if n.isHtml ["caption"] then .inCaption
      else if n.isHtml ["colgroup"] then .inColumnGroup
      else if n.isHtml ["table"] then .inTable
      else if n.isHtml ["template"] then b.templates.head?.getD .inTemplate
      else if n.isHtml ["head"] && !below.isEmpty then .inHead
      else if n.isHtml ["body"] then .inBody
      else if n.isHtml ["frameset"] then .inFrameset
      else if n.isHtml ["html"] then (if b.head.isSome then .afterHead else .beforeHead)
      else go below
  go b.stack

/-- Goes to the mode that the open elements ask for. -/
def resetMode (b : Builder) : Builder := { b with mode := b.modeOf }

/-- Closes a template that is open. -/
def closeTemplate (b : Builder) : Builder :=
  let b := (b.popTag "template").clearToBorder
  { b with templates := b.templates.drop 1 }.resetMode

/-! ## Untangling formatting -/

/-- The nodes between a block and a formatting element around it, while they are untangled: those that stay open, the last node
that was moved, and the one that the formatting element's place is to be after. -/
structure Tangle where
  builder : Builder
  kept : List Nat
  last : Nat
  after : Option Nat

/-- Untangles the nodes between a block and a formatting element around it, from the inside: a formatting element among the inner
three is made anew around what was moved so far, and every other node is closed. -/
def untangle (block : Nat) : Nat → List Nat → Tangle → Tangle
  | _, [], t => t
  | count, node :: rest, t =>
    if count ≥ 3 then untangle block (count + 1) rest { t with builder := t.builder.unformat node }
    else
      let entry := t.builder.formatting.findSome? fun
        | .border => none
        | .element i tag => if i = node then some tag else none
      match entry with
      | none => untangle block (count + 1) rest t
      | some tag =>
        let (arena, new) := t.builder.arena.addElement (.html tag.name) (plainAttrs tag.attrs)
        let formatting := t.builder.formatting.map fun e => if Formatting.isOf node e then .element new tag else e
        let after := if t.last = block then some new else t.after
        untangle block (count + 1) rest
          ⟨{ t.builder with arena := arena.append new t.last, formatting }, t.kept ++ [new], new, after⟩

/-- One turn of untangling a formatting element and the blocks inside it; `none` when nothing is left to do. -/
def adoptOnce (b : Builder) (node : Nat) (tag : StartTag) : Builder × Bool :=
  let above := b.stack.takeWhile (· != node)
  match b.stack.drop above.length with
  | [] => (b.unformat node, false)
  | _ :: below =>
    if !found (· == node) (fun i => (b.nameOf i).endsScope) b.stack then (b, false)
    else
      match above.reverse.find? fun i => (b.nameOf i).isSpecial with
      | none => ({ b with stack := below }.unformat node, false)
      | some block =>
        let inner := above.takeWhile (· != block)
        let between := (above.dropWhile (· != block)).drop 1
        let t := untangle block 0 between ⟨b, [], block, none⟩
        let b := t.builder
        let b := { b with arena := b.arena.detach t.last }
        let b := b.putAt (b.placeFor below.head?) t.last
        let (arena, new) := b.arena.addElement (.html tag.name) (plainAttrs tag.attrs)
        let arena := (arena.moveChildren block new).append block new
        let entry := Formatting.element new tag
        let formatting :=
          match t.after with
          | none => b.formatting.map fun e => if Formatting.isOf node e then entry else e
          | some after =>
            (b.formatting.flatMap fun e => if Formatting.isOf after e then [entry, e] else [e]).eraseP (Formatting.isOf node)
        ({ b with arena, formatting, stack := inner ++ new :: block :: t.kept ++ below }, true)

/-- Untangles formatting of a name, some turns at most. -/
def adoptTurns (tag : Text) : Nat → Builder → Builder
  | 0, b => b
  | turns + 1, b =>
    match b.formattingHere.find? fun (_, t) => t.name == tag with
    | none => b.closeAny tag
    | some (node, t) =>
      let (b, more) := b.adoptOnce node t
      if more then adoptTurns tag turns b else b

/-- What the end tag of a formatting element does. -/
def adopt (b : Builder) (tag : Text) : Builder :=
  if b.currentIs [tag] && !b.isFormatting b.current then b.pop else adoptTurns tag 8 b

end Builder

end LocalePages
