import LocalePages.Markup.Construction.Head

/-!
# The body of a page

The rule of the body, which is also asked about what stands inside tables and templates. Paragraphs and items of lists end where
the next one starts, formatting goes on past the end of the element it was opened in, and foreign markup starts here.
-/

namespace LocalePages

namespace Builder

/-- Forbids a set of frames in place of the body. -/
def noFrames (b : Builder) : Builder := { b with framesAllowed := false }

/-- Ends a template that the page ends in. -/
def templateDone (b : Builder) : Outcome := if b.isOpen "template" then .again b.closeTemplate else .settled b

/-- Whether a tag is that of a hidden field. -/
def isHidden (tag : StartTag) : Bool :=
  match tag.attrs.lookup ("type" : Text) with
  | some value => Text.sameIgnoringCase value "hidden"
  | none => false

/-- Adds the element of a tag that stays empty. -/
def addVoid (b : Builder) (tag : StartTag) : Builder :=
  let b := b.reopenFormatting.addTag tag
  if tag.name = "input" && isHidden tag then b else b.noFrames

/-- Starts an item of a list. Items of its kind that are open end here, unless a special element is in between. -/
def startItem (b : Builder) (tag : StartTag) : Builder :=
  let kind : List Text := if tag.name = "li" then ["li"] else ["dd", "dt"]
  let passes (n : ElementName) := !n.isHtml kind && (!n.isSpecial || n.isHtml ["address", "div", "p"])
  let b := b.noFrames
  let b := match (b.stack.map b.nameOf).find? fun n => !passes n with
    | some n => if n.isHtml kind then (b.endSilentlyExcept n.tag).popTag n.tag else b
    | none => b
  b.leaveParagraph.openTag tag

/-- Adds an element of foreign markup, and opens it unless its tag closes itself. -/
def openForeign (b : Builder) (space : Space) (tag : StartTag) : Builder :=
  let (b, i) := b.addElement ⟨space, tag.name⟩ (foreignAttrsOf space tag.attrs)
  if tag.selfClosing then b else b.push i

/-- What a start tag does in the body. -/
def startInBody (b : Builder) (tag : StartTag) : Outcome :=
  let n := tag.name
  if n = "html" then .settled (b.mergeRoot tag)
  else if n.isOneOf headTags then b.inHead (.start tag)
  else if n = "body" then
    match b.body? with
    | some body =>
      if b.stack.length = 1 || b.isOpen "template" then .settled b
      else .settled { b.noFrames with arena := b.arena.addMissingAttrs body (plainAttrs tag.attrs) }
    | none => .settled b
  else if n = "frameset" then
    match b.framesAllowed, b.body? with
    | true, some body =>
      let b := { b with arena := b.arena.detach body, stack := [b.root] }
      .settled { b.openTag tag with mode := .inFrameset }
    | _, _ => .settled b
  else if n.isOneOf ["address", "article", "aside", "blockquote", "center", "details", "dialog", "dir", "div", "dl", "fieldset",
      "figcaption", "figure", "footer", "header", "hgroup", "main", "menu", "nav", "ol", "p", "section", "summary", "ul"] then
    .settled (b.leaveParagraph.openTag tag)
  else if n.isOneOf ElementName.headingTags then
    let b := b.leaveParagraph
    .settled ((if b.currentIs ElementName.headingTags then b.pop else b).openTag tag)
  else if n.isOneOf ["pre", "listing"] then
    .settled { (b.leaveParagraph.openTag tag).noFrames with newlineDrops := true }
  else if n = "form" then
    if b.form.isSome && !b.isOpen "template" then .settled b
    else
      let b := b.leaveParagraph.openTag tag
      .settled (if b.isOpen "template" then b else { b with form := some b.current })
  else if n.isOneOf ["li", "dd", "dt"] then .settled (b.startItem tag)
  else if n = "plaintext" then .settled { b.leaveParagraph.openTag tag with reading := some .toTheEnd }
  else if n = "button" then
    let b := if b.scopeHas "button" then b.endSilently.popTag "button" else b
    .settled (b.reopenFormatting.openTag tag).noFrames
  else if n = "a" then
    let b := match b.formattingHere.find? fun (i, _) => (b.nameOf i).isHtml ["a"] with
      | some (i, _) => ((b.adopt "a").unformat i).unstack i
      | none => b
    .settled (b.reopenFormatting.openFormatting tag)
  else if n.isOneOf ["b", "big", "code", "em", "font", "i", "s", "small", "strike", "strong", "tt", "u"] then
    .settled (b.reopenFormatting.openFormatting tag)
  else if n = "nobr" then
    let b := b.reopenFormatting
    let b := if b.scopeHas "nobr" then (b.adopt "nobr").reopenFormatting else b
    .settled (b.openFormatting tag)
  else if n.isOneOf ["applet", "marquee", "object"] then .settled (b.reopenFormatting.openTag tag).addBorder.noFrames
  else if n = "table" then
    let b := if b.oldLayout then b else b.leaveParagraph
    .settled { (b.openTag tag).noFrames with mode := .inTable }
  else if n.isOneOf ["area", "br", "embed", "img", "keygen", "wbr", "input"] then .settled (b.addVoid tag)
  else if n.isOneOf ["param", "source", "track"] then .settled (b.addTag tag)
  else if n = "hr" then .settled (b.leaveParagraph.addTag tag).noFrames
  else if n = "image" then .settled (b.addVoid { tag with name := "img" })
  else if n = "textarea" then .settled { b.noFrames.openText tag (.withReferences n) with newlineDrops := true }
  else if n = "xmp" then .settled (b.leaveParagraph.reopenFormatting.noFrames.openText tag (.raw n))
  else if n = "iframe" then .settled (b.noFrames.openText tag (.raw n))
  else if n.isOneOf ["noembed", "noscript"] then .settled (b.openText tag (.raw n))
  else if n = "select" then
    let mode := match b.mode with
      | .inTable | .inCaption | .inTableBody | .inRow | .inCell => Mode.inSelectInTable
      | _ => .inSelect
    .settled { (b.reopenFormatting.openTag tag).noFrames with mode }
  else if n.isOneOf ["optgroup", "option"] then
    let b := if b.currentIs ["option"] then b.pop else b
    .settled (b.reopenFormatting.openTag tag)
  else if n.isOneOf ["rb", "rtc"] then
    .settled ((if b.scopeHas "ruby" then b.endSilently else b).openTag tag)
  else if n.isOneOf ["rp", "rt"] then
    .settled ((if b.scopeHas "ruby" then b.endSilentlyExcept "rtc" else b).openTag tag)
  else if n = "math" then .settled (b.openForeign .mathml tag)
  else if n = "svg" then .settled (b.openForeign .svg tag)
  else if n.isOneOf ["caption", "col", "colgroup", "frame", "head", "tbody", "td", "tfoot", "th", "thead", "tr"] then .settled b
  else .settled (b.reopenFormatting.openTag tag)

/-- What the end tag of a form does. -/
def closeForm (b : Builder) : Builder :=
  if b.isOpen "template" then
    if b.scopeHas "form" then b.endSilently.popTag "form" else b
  else
    match b.form with
    | none => b
    | some form =>
      let b := { b with form := none }
      if found (· == form) (fun i => (b.nameOf i).endsScope) b.stack then b.endSilently.unstack form else b

/-- What an end tag does in the body. -/
def closeInBody (b : Builder) (n : Text) : Outcome :=
  if n = "template" then b.inHead (.close n)
  else if n = "body" then .settled (if b.scopeHas "body" then { b with mode := .afterBody } else b)
  else if n = "html" then (if b.scopeHas "body" then b.retry .afterBody else .settled b)
  else if n.isOneOf ["address", "article", "aside", "blockquote", "button", "center", "details", "dialog", "dir", "div", "dl",
      "fieldset", "figcaption", "figure", "footer", "header", "hgroup", "listing", "main", "menu", "nav", "ol", "pre", "section",
      "summary", "ul"] then
    .settled (if b.scopeHas n then b.endSilently.popTag n else b)
  else if n = "form" then .settled b.closeForm
  else if n = "p" then .settled (if b.inParagraph then b else b.openImplied "p").closeParagraph
  else if n.isOneOf ["li", "dd", "dt"] then
    let here := if n = "li" then b.inScope ElementName.endsItemScope (·.isHtml ["li"]) else b.scopeHas n
    .settled (if here then (b.endSilentlyExcept n).popTag n else b)
  else if n.isOneOf ElementName.headingTags then
    let heading (name : ElementName) := name.isHtml ElementName.headingTags
    .settled (if b.inScope ElementName.endsScope heading then b.endSilently.popThrough heading else b)
  else if n.isOneOf ["a", "b", "big", "code", "em", "font", "i", "nobr", "s", "small", "strike", "strong", "tt", "u"] then
    .settled (b.adopt n)
  else if n.isOneOf ["applet", "marquee", "object"] then
    .settled (if b.scopeHas n then (b.endSilently.popTag n).clearToBorder else b)
  else if n = "br" then .settled (b.addVoid ⟨n, [], false⟩)
  else .settled (b.closeAny n)

/-- The rule in the body. -/
def inBody (b : Builder) : Piece → Outcome
  | .null => .settled b
  | .space t => .settled (b.reopenFormatting.addText t)
  | .words t => .settled (b.reopenFormatting.noFrames.addText t)
  | .comment t => .settled (b.addComment t)
  | .start tag => b.startInBody tag
  | .close name => b.closeInBody name
  | .done => if b.templates.isEmpty then .settled b else b.templateDone

/-- The rule in an element that is read as text. -/
def inText (b : Builder) : Piece → Outcome
  | .space t => .settled (b.addText t)
  | .words t => .settled (b.addText t)
  | .done => b.pop.retry b.back
  | .close _ => .settled { b.pop with mode := b.back }
  | _ => .settled b

/-- The rule directly in a template: the first tag tells what kind of thing the template holds. -/
def inTemplate (b : Builder) (p : Piece) : Outcome :=
  let holds (mode : Mode) := { b with templates := mode :: b.templates.drop 1 }.retry mode
  match p with
  | .space _ => b.inBody p
  | .words _ => b.inBody p
  | .comment _ => b.inBody p
  | .null => .settled b
  | .start tag =>
    if tag.name.isOneOf headTags then b.inHead p
    else if tag.name.isOneOf ["caption", "colgroup", "tbody", "tfoot", "thead"] then holds .inTable
    else if tag.name = "col" then holds .inColumnGroup
    else if tag.name = "tr" then holds .inTableBody
    else if tag.name.isOneOf ["td", "th"] then holds .inRow
    else holds .inBody
  | .close name => if name = "template" then b.inHead p else .settled b
  | .done => b.templateDone

/-- The rule after the end tag of the body. -/
def afterBody (b : Builder) (p : Piece) : Outcome :=
  match p with
  | .space _ => b.inBody p
  | .comment t => .settled (b.addCommentTo b.root t)
  | .start tag => if tag.name = "html" then .settled (b.mergeRoot tag) else b.retry .inBody
  | .close name => if name = "html" then .settled { b with mode := .afterAfterBody } else b.retry .inBody
  | .done => .settled b
  | _ => b.retry .inBody

/-- The rule after the end tag of the page. -/
def afterAfterBody (b : Builder) (p : Piece) : Outcome :=
  match p with
  | .space _ => b.inBody p
  | .comment t => .settled (b.addCommentTo Arena.document t)
  | .start tag => if tag.name = "html" then .settled (b.mergeRoot tag) else b.retry .inBody
  | .done => .settled b
  | _ => b.retry .inBody

/-- The rule in a set of frames. -/
def inFrameset (b : Builder) (p : Piece) : Outcome :=
  match p with
  | .space t => .settled (b.addText t)
  | .comment t => .settled (b.addComment t)
  | .start tag =>
    if tag.name = "html" then .settled (b.mergeRoot tag)
    else if tag.name = "frameset" then .settled (b.openTag tag)
    else if tag.name = "frame" then .settled (b.addTag tag)
    else if tag.name = "noframes" then b.inHead p
    else .settled b
  | .close name =>
    if name = "frameset" && b.stack.length ≠ 1 then
      let b := b.pop
      .settled (if b.currentIs ["frameset"] then b else { b with mode := .afterFrameset })
    else .settled b
  | _ => .settled b

/-- The rule after a set of frames. -/
def afterFrameset (b : Builder) (p : Piece) : Outcome :=
  match p with
  | .space t => .settled (b.addText t)
  | .comment t => .settled (b.addComment t)
  | .start tag =>
    if tag.name = "html" then .settled (b.mergeRoot tag)
    else if tag.name = "noframes" then b.inHead p
    else .settled b
  | .close name => .settled (if name = "html" then { b with mode := .afterAfterFrameset } else b)
  | _ => .settled b

/-- The rule after the end tag of a page of frames. -/
def afterAfterFrameset (b : Builder) (p : Piece) : Outcome :=
  match p with
  | .space _ => b.inBody p
  | .comment t => .settled (b.addCommentTo Arena.document t)
  | .start tag =>
    if tag.name = "html" then .settled (b.mergeRoot tag)
    else if tag.name = "noframes" then b.inHead p
    else .settled b
  | _ => .settled b

end Builder

end LocalePages
