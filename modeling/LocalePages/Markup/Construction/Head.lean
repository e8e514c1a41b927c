import LocalePages.Markup.Construction.Builder

/-!
# The start of a page

What the construction of a page goes by: pieces, which are tokens whose text is blank throughout or not blank at all, and for
each mode a rule. A rule either settles a piece or changes the page and asks for another rule (`Outcome`). Here are the rules up
to the body. The outermost element, the head and the body exist whether there are tags for them or not.
-/

namespace LocalePages

/-- What a rule is asked about. -/
inductive Piece where
  | space (t : Text)
  | words (t : Text)
  | null
  | start (tag : StartTag)
  | close (name : Text)
  | comment (t : Text)
  | done

/-- What a rule makes of a piece: the page with the piece in it, or the page whose mode is to judge the piece again. -/
inductive Outcome where
  | settled (b : Builder)
  | again (b : Builder)

namespace Builder

/-- Asks for the rule of a mode. -/
def retry (b : Builder) (mode : Mode) : Outcome := .again { b with mode }

/-- Gives the outermost element the attributes of another tag for it, except inside a template. -/
def mergeRoot (b : Builder) (tag : StartTag) : Builder :=
  if b.isOpen "template" then b else { b with arena := b.arena.addMissingAttrs b.root (plainAttrs tag.attrs) }

/-- The rule before anything but a doctype. -/
def initial (b : Builder) : Piece → Outcome
  | .space _ => .settled b
  | .comment t => .settled (b.addCommentTo Arena.document t)
  | _ => { b with oldLayout := true }.retry .beforeHtml

/-- The rule before the outermost element. -/
def beforeHtml (b : Builder) (p : Piece) : Outcome :=
  let otherwise := (b.openRoot []).retry .beforeHead
  match p with
  | .space _ => .settled b
  | .comment t => .settled (b.addCommentTo Arena.document t)
  | .start tag => if tag.name = "html" then .settled { b.openRoot tag.attrs with mode := .beforeHead } else otherwise
  | .close name => if name.isOneOf ["head", "body", "html", "br"] then otherwise else .settled b
  | _ => otherwise

/-- The rule before the head. -/
def beforeHead (b : Builder) (p : Piece) : Outcome :=
  let withHead (tag : StartTag) : Builder :=
    let b := b.openTag tag
    { b with head := some b.current, mode := .inHead }
  let otherwise := Outcome.again (withHead ⟨"head", [], false⟩)
  match p with
  | .space _ => .settled b
  | .comment t => .settled (b.addComment t)
  | .start tag =>
    if tag.name = "html" then .settled (b.mergeRoot tag)
    else if tag.name = "head" then .settled (withHead tag)
    else otherwise
  | .close name => if name.isOneOf ["head", "body", "html", "br"] then otherwise else .settled b
  | _ => otherwise

/-- The rule inside the head, which other rules ask about the elements that belong there. -/
def inHead (b : Builder) (p : Piece) : Outcome :=
  let otherwise := b.pop.retry .afterHead
  match p with
  | .space t => .settled (b.addText t)
  | .comment t => .settled (b.addComment t)
  | .start tag =>
    if tag.name = "html" then .settled (b.mergeRoot tag)
    else if tag.name.isOneOf ["base", "basefont", "bgsound", "link", "meta"] then .settled (b.addTag tag)
    else if tag.name = "title" then .settled (b.openText tag (.withReferences tag.name))
    else if tag.name.isOneOf ["noframes", "style", "noscript"] then .settled (b.openText tag (.raw tag.name))
    else if tag.name = "script" then .settled (b.openText tag .script)
    else if tag.name = "template" then
      let b := (b.openTag tag).addBorder
      .settled { b with framesAllowed := false, mode := .inTemplate, templates := .inTemplate :: b.templates }
    else if tag.name = "head" then .settled b
    else otherwise
  | .close name =>
    if name = "head" then .settled { b.pop with mode := .afterHead }
    else if name = "template" then .settled (if b.isOpen "template" then b.closeTemplate else b)
    else if name.isOneOf ["body", "html", "br"] then otherwise
    else .settled b
  | _ => otherwise

/-- The elements that belong into the head wherever they stand. -/
def headTags : List Text :=
  ["base", "basefont", "bgsound", "link", "meta", "noframes", "script", "style", "template", "title"]

/-- The rule between the head and the body. -/
def afterHead (b : Builder) (p : Piece) : Outcome :=
  let otherwise := (b.openImplied "body").retry .inBody
  match p with
  | .space t => .settled (b.addText t)
  | .comment t => .settled (b.addComment t)
  | .start tag =>
    if tag.name = "html" then .settled (b.mergeRoot tag)
    else if tag.name = "body" then .settled { b.openTag tag with framesAllowed := false, mode := .inBody }
    else if tag.name = "frameset" then .settled { b.openTag tag with mode := .inFrameset }
    else if tag.name.isOneOf headTags then
      let head := b.head.getD Arena.document
      match (b.push head).inHead p with
      | .settled b => .settled (b.unstack head)
      | .again b => .again (b.unstack head)
    else if tag.name = "head" then .settled b
    else otherwise
  | .close name =>
    if name = "template" then b.inHead p
    else if name.isOneOf ["body", "html", "br"] then otherwise
    else .settled b
  | _ => otherwise

end Builder

end LocalePages
