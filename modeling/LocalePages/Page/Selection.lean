import LocalePages.Markup.Document

/-!
# Selections

A selection lets a caller hold on to the annotated elements of a document while it writes to them. An element stays within reach
when the text of one around it is replaced: what was inside goes to a piece of its own. A selection is thus a document, the
pieces that were taken out of it, and the places of the selected elements in them.
-/

namespace LocalePages

/-- The place of an element: the piece it is in, none for the document, and the way down from there. -/
structure Spot where
  piece : Option Nat
  way : List Nat
  deriving DecidableEq, Repr

namespace Node

mutual

/-- The ways to the annotated elements in a node. -/
def waysTo (mark : Text) : Node → List (List Nat)
  | .element _ attrs children =>
    let inside := waysToAll mark 0 children
    if attrs.has mark then [] :: inside else inside
  | _ => []

/-- The ways to the annotated elements in nodes, the first of which has this place. -/
def waysToAll (mark : Text) (place : Nat) : List Node → List (List Nat)
  | [] => []
  | n :: rest => (n.waysTo mark).map (place :: ·) ++ waysToAll mark (place + 1) rest

end

/-- The element at the end of a way into nodes. -/
def elementAt? : List Node → List Nat → Option Element
  | _, [] => none
  | nodes, [i] =>
    match nodes[i]? with
    | some (.element name attrs children) => some ⟨name, attrs, children⟩
    | _ => none
  | nodes, i :: way =>
    match nodes[i]? with
    | some (.element _ _ children) => elementAt? children way
    | _ => none

/-- Nodes with another element at the end of a way. -/
def putAt : List Node → List Nat → Element → List Node
  | nodes, [], _ => nodes
  | nodes, [i], e => nodes.set i e.node
  | nodes, i :: way, e =>
    match nodes[i]? with
    | some (.element name attrs children) => nodes.set i (.element name attrs (putAt children way e))
    | _ => nodes

end Node

/-- A selection. `mark` is the attribute that annotates an element. -/
structure Selection where
  document : Document
  mark : Text
  pieces : List (List Node)
  spots : List Spot

namespace Selection

/-- A document of which nothing is selected. -/
def none (d : Document) : Selection := ⟨d, [], [], []⟩

/-- All annotated elements of a document. -/
def all (d : Document) (mark : Text) : Selection :=
  ⟨d, mark, [], (Node.waysToAll mark 0 d.nodes).map (Spot.mk Option.none)⟩

/-- The nodes of a piece. -/
def nodesOf (s : Selection) : Option Nat → List Node
  | Option.none => s.document.nodes
  | some i => s.pieces.getD i []

/-- A selected element. -/
def get? (s : Selection) (i : Nat) : Option Element :=
  (s.spots[i]?).bind fun spot => Node.elementAt? (s.nodesOf spot.piece) spot.way

/-- The selection with another element at a spot. -/
def putAt (s : Selection) (spot : Spot) (e : Element) : Selection :=
  let nodes := Node.putAt (s.nodesOf spot.piece) spot.way e
  match spot.piece with
  | Option.none => { s with document := { s.document with nodes } }
  | some i => { s with pieces := s.pieces.set i nodes }

/-- Where a spot is after what was inside an element went to a piece of its own. -/
def moved (element : Spot) (piece : Nat) (spot : Spot) : Spot :=
  match spot.piece == element.piece, element.way.isPrefixOf? spot.way with
  | true, some (next :: way) => ⟨some piece, next :: way⟩
  | _, _ => spot

/-- Gives the marker of a selected element a value. -/
def setMarker (s : Selection) (i : Nat) (value : Text) : Selection :=
  match s.spots[i]?, s.get? i with
  | some spot, some e => s.putAt spot (e.setMarker s.mark value)
  | _, _ => s

/-- Replaces what a tag of a selected element is about. -/
def write (s : Selection) (i : Nat) (k : Keyword) (value : Text) : Selection :=
  match s.spots[i]?, s.get? i with
  | some spot, some e =>
    let written := s.putAt spot (e.write k value)
    match k with
    | .attribute _ => written
    | .text =>
      { written with
        pieces := written.pieces ++ [e.children]
        spots := s.spots.map (moved spot s.pieces.length) }
  | _, _ => s

end Selection

end LocalePages
