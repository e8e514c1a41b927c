import LocalePages.Proofs.Planting
import LocalePages.Proofs.RawTexts
import LocalePages.Proofs.TagRules

/-!
# Plain trees

Reading recovers from everything, so most trees are not what is read when they are written: a paragraph inside a paragraph, a line
feed at the start of preformatted text, two texts side by side. Here it is said, by the rules for its tags, which elements can stand
inside which others (`StartRule.opens`), and from that which trees are plain (`Node.fits`): no tag in them does more than to open or
to close its own element.
-/

namespace LocalePages

/-! ## Elements around a place -/

/-- Whether the search for an element finds one among the elements around a place, which stand with the innermost first. -/
def reaches (wanted ends : ElementName → Bool) : List Text → Bool
  | [] => false
  | n :: outer => wanted (.html n) || (!ends (.html n) && reaches wanted ends outer)

/-- Whether a place is in a paragraph that the next block would end. -/
def inParagraph (outer : List Text) : Bool := reaches (·.isHtml ["p"]) ElementName.endsButtonScope outer

/-- Whether a place is in an item that the next one of its kind would end. -/
def inItem (n : Text) (outer : List Text) : Bool :=
  let kind : List Text := if n = "li" then ["li"] else ["dd", "dt"]
  let passes (m : ElementName) := !m.isHtml kind && (!m.isSpecial || m.isHtml ["address", "div", "p"])
  ((outer.map ElementName.html).find? fun m => !passes m).any (·.isHtml kind)

/-- Whether an element can be opened at a place without closing another one. -/
def StartRule.opens (rule : StartRule) (n : Text) (outer : List Text) : Bool :=
  match rule with
  | block | preformatted | separator => !inParagraph outer
  | heading => !inParagraph outer && !outer.head?.any (Text.isOneOf · ElementName.headingTags)
  | form => !inParagraph outer && !outer.contains "form"
  | item => !inParagraph outer && !inItem n outer
  | button => !reaches (·.isHtml ["button"]) ElementName.endsScope outer
  | link => !outer.contains "a" && n == "a"
  | formatting => outer.count n < 3
  | unbroken => !reaches (·.isHtml ["nobr"]) ElementName.endsScope outer && outer.count n < 3
  | bare | void | text _ | frame _ | area _ | plain => true
  | barred => false

/-- Whether the rules for two tags are those of the start and the end of an element that other nodes can be in. -/
def StartRule.endsBy : StartRule → EndRule → Bool
  | block, .block | block, .paragraph | heading, .heading | preformatted, .block | form, .form | item, .item | button, .block
  | link, .formatting | formatting, .formatting | unbroken, .formatting | plain, .plain => true
  | _, _ => false

/-- Whether an end tag of this name closes its own element when that is the innermost one. -/
def EndRule.suits (rule : EndRule) (n : Text) : Bool :=
  match rule with
  | block | form => !(ElementName.html n).endsSilently
  | heading => !(ElementName.html n).endsSilently && n.isOneOf ElementName.headingTags
  | paragraph => n == "p"
  | item | formatting | plain => true
  | barred => false

/-! ## Plain nodes -/

/-- Whether attributes are in order, and are read as they are written. -/
def Attrs.isPlain (attrs : Attrs) : Bool :=
  attrs.all Attr.isPlain && decide (attrs.map Attr.name).Nodup && Attrs.ofList attrs == attrs

/-- Whether an element that is read as text holds only text, and such that is read as it is written. `drops` tells that a line feed at
its start is not read. -/
def Reading.holds (reading : Reading) (name : ElementName) (drops : Bool) (children : List Node) : Bool :=
  !name.isVoid && (name.isRaw == match reading with | .withReferences _ => false | _ => true) &&
    match children with
    | [] => reading.keeps name.tag []
    | [.text t] => !t.isEmpty && t.isPlain && reading.keeps name.tag t && !(drops && t.head? == some '\n')
    | _ => false

/-- Whether the first of some nodes is text with a line feed at its start. -/
def Node.startWithLineFeed : List Node → Bool
  | .text ('\n' :: _) :: _ => true
  | _ => false

mutual

/-- Whether a node is one that is read as it is written at a place of the body. -/
def Node.fits (outer : List Text) : Node → Bool
  | .element name attrs children =>
    name.space == .html && name.tag.isTagName && attrs.isPlain && (startRule name.tag).opens name.tag outer &&
      match startRule name.tag with
      | .bare | .void | .separator => name.isVoid && children.isEmpty
      | .text reading | .frame reading => reading.holds name false children
      | .area reading => reading.holds name true children
      | rule =>
        !name.isVoid && !name.isRaw && rule.endsBy (endRule name.tag) && (endRule name.tag).suits name.tag &&
          !(rule == .preformatted && Node.startWithLineFeed children) && Node.fitsAll (name.tag :: outer) children
  | .text t => !t.isEmpty && t.isPlain && t.head? != some '\ufeff'
  | .comment t => t.isPlainComment
  | .doctype _ => false

/-- Whether nodes are read as they are written one after the other. -/
def Node.fitsAll (outer : List Text) : List Node → Bool
  | [] => true
  | n :: rest => n.fits outer && !(n.isText && rest.head?.any Node.isText) && Node.fitsAll outer rest

end

end LocalePages
