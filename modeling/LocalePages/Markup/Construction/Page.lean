import LocalePages.Markup.Construction.Table

/-!
# From text to a page

The rules of all modes together, the rules of foreign markup, and the loop over the tokens of a text. Whether a token is judged
by the rules of foreign markup hangs on the innermost open element. `readPage` answers for every text: there is no such thing as
broken markup.
-/

namespace LocalePages

namespace Builder

/-- The rule of a mode. -/
def rule (mode : Mode) (b : Builder) (p : Piece) : Outcome :=
  match mode with
  | .initial => b.initial p
  | .beforeHtml => b.beforeHtml p
  | .beforeHead => b.beforeHead p
  | .inHead => b.inHead p
  | .afterHead => b.afterHead p
  | .inBody => b.inBody p
  | .text => b.inText p
  | .inTable => b.inTable p
  | .inTableText => b.inTableText p
  | .inCaption => b.inCaption p
  | .inColumnGroup => b.inColumnGroup p
  | .inTableBody => b.inTableBody p
  | .inRow => b.inRow p
  | .inCell => b.inCell p
  | .inSelect => b.inSelect p
  | .inSelectInTable => b.inSelectInTable p
  | .inTemplate => b.inTemplate p
  | .afterBody => b.afterBody p
  | .inFrameset => b.inFrameset p
  | .afterFrameset => b.afterFrameset p
  | .afterAfterBody => b.afterAfterBody p
  | .afterAfterFrameset => b.afterAfterFrameset p

/-! ## Foreign markup -/

/-- Whether a piece is judged by the rules of foreign markup. -/
def isForeign (b : Builder) (p : Piece) : Bool :=
  let n := b.currentName
  if b.stack.isEmpty || n.space == .html then false
  else
    match p with
    | .done => false
    | .space _ | .words _ | .null => !n.isMathText && !n.holdsHtml
    | .start tag =>
      !(n.isMathText && !tag.name.isOneOf ["mglyph", "malignmark"]) && !n.holdsHtml &&
        !(n == ⟨.mathml, "annotation-xml"⟩ && tag.name == "svg")
    | _ => true

/-- The elements of ordinary markup whose start tags end foreign markup. -/
def breakingTags : List Text :=
  (["b", "big", "blockquote", "body", "br", "center", "code", "dd", "div", "dl", "dt", "em", "embed", "h1", "h2", "h3", "h4", "h5",
    "h6", "head", "hr", "i", "img", "li", "listing", "menu", "meta", "nobr", "ol", "p", "pre", "ruby", "s", "small", "span",
    "strong", "strike", "sub", "sup", "table", "tt", "u", "ul", "var"] : List String).map String.toList

/-- Whether a start tag ends foreign markup. -/
def breaksOut (tag : StartTag) : Bool :=
  tag.name.isOneOf breakingTags ||
    (tag.name == "font" && tag.attrs.any fun (name, _) => name.isOneOf ["color", "face", "size"])

/-- Closes foreign elements up to one that holds ordinary markup. -/
def leaveForeign (b : Builder) : Builder :=
  b.pop.popWhile fun n => !(n.space == .html || n.isMathText || n.holdsHtml)

/-- What an end tag does in foreign markup: it closes the element of its name, or it is judged by the rule of the mode where an
element of ordinary markup comes first. -/
def closeForeign (b : Builder) (name : Text) (first : Bool) : List Nat → Outcome
  | [] => .settled b
  | i :: below =>
    let n := b.nameOf i
    if below.isEmpty then .settled b
    else if !first && n.space == .html then b.rule b.mode (.close name)
    else if Text.sameIgnoringCase n.tag name then .settled { b with stack := below }
    else closeForeign b name false below

/-- The rule of foreign markup. -/
def foreign (b : Builder) : Piece → Outcome
  | .null => .settled (b.addText ['\ufffd'])
  | .space t => .settled (b.addText t)
  | .words t => .settled (b.noFrames.addText t)
  | .comment t => .settled (b.addComment t)
  | .start tag =>
    if breaksOut tag then .again b.leaveForeign
    else
      let space := b.currentName.space
      let name := if space = .svg then spelled drawingTags tag.name else tag.name
      .settled (b.openForeign space { tag with name })
  | .close name => b.closeForeign name true b.stack
  | .done => .settled b

/-! ## Tokens -/

/-- Settles a piece. `fuel` bounds how often it is judged again. -/
def settle : Nat → Builder → Piece → Builder
  | 0, b, _ => b
  | fuel + 1, b, p =>
    match if b.isForeign p then b.foreign p else b.rule b.mode p with
    | .settled b => b
    | .again b => settle fuel b p

/-- Takes in a piece. Each time a piece is judged again, an element was closed or the page went on to a later part. -/
def accept (b : Builder) (p : Piece) : Builder := settle (4 * b.stack.length + 32) b p

/-- A text cut into runs that are blank and runs that are not. -/
def pieces (t : Text) : List Piece :=
  (t.splitBy fun c d => isBlank c == isBlank d).map fun run => if run.all isBlank then .space run else .words run

/-- Takes in text. -/
def acceptText (b : Builder) (t : Text) (bare drops : Bool) : Builder :=
  let t := match t with
    | '\n' :: rest => if drops && !bare then rest else t
    | _ => t
  (pieces t).foldl accept b

end Builder

/-! ## Doctypes -/

/-- The public identifiers, or their beginnings, of the doctypes that ask for the layout of old browsers. -/
def oldLayoutIds : List Text :=
  (["-//advasoft ltd//dtd html 3.0 aswedit + extensions//", "-//as//dtd html 3.0 aswedit + extensions//",
    "-//ietf//dtd html 2.0 level 1//", "-//ietf//dtd html 2.0 level 2//", "-//ietf//dtd html 2.0 strict level 1//",
    "-//ietf//dtd html 2.0 strict level 2//", "-//ietf//dtd html 2.0 strict//", "-//ietf//dtd html 2.0//",
    "-//ietf//dtd html 2.1e//", "-//ietf//dtd html 3.0//", "-//ietf//dtd html 3.2 final//", "-//ietf//dtd html 3.2//",
    "-//ietf//dtd html 3//", "-//ietf//dtd html level 0//", "-//ietf//dtd html level 1//", "-//ietf//dtd html level 2//",
    "-//ietf//dtd html level 3//", "-//ietf//dtd html strict level 0//", "-//ietf//dtd html strict level 1//",
    "-//ietf//dtd html strict level 2//", "-//ietf//dtd html strict level 3//", "-//ietf//dtd html strict//",
    "-//ietf//dtd html//", "-//metrius//dtd metrius presentational//",
    "-//microsoft//dtd internet explorer 2.0 html strict//", "-//microsoft//dtd internet explorer 2.0 html//",
    "-//microsoft//dtd internet explorer 2.0 tables//", "-//microsoft//dtd internet explorer 3.0 html strict//",
    "-//microsoft//dtd internet explorer 3.0 html//", "-//microsoft//dtd internet explorer 3.0 tables//",
    "-//netscape comm. corp.//dtd html//", "-//netscape comm. corp.//dtd strict html//",
    "-//o'reilly and associates//dtd html 2.0//", "-//o'reilly and associates//dtd html extended 1.0//",
    "-//o'reilly and associates//dtd html extended relaxed 1.0//",
    "-//softquad software//dtd hotmetal pro 6.0::19990601::extensions to html 4.0//",
    "-//softquad//dtd hotmetal pro 4.0::19971010::extensions to html 4.0//", "-//spyglass//dtd html 2.0 extended//",
    "-//sq//dtd html 2.0 hotmetal + extensions//", "-//sun microsystems corp.//dtd hotjava html//",
    "-//sun microsystems corp.//dtd hotjava strict html//", "-//w3c//dtd html 3 1995-03-24//", "-//w3c//dtd html 3.2 draft//",
    "-//w3c//dtd html 3.2 final//", "-//w3c//dtd html 3.2//", "-//w3c//dtd html 3.2s draft//",
    "-//w3c//dtd html 4.0 frameset//", "-//w3c//dtd html 4.0 transitional//", "-//w3c//dtd html experimental 19960712//",
    "-//w3c//dtd html experimental 970421//", "-//w3c//dtd w3 html//", "-//w3o//dtd w3 html 3.0//",
    "-//webtechs//dtd mozilla html 2.0//", "-//webtechs//dtd mozilla html//"] : List String).map String.toList

/-- The system identifier of a doctype that asks for it. -/
def oldLayoutSystemId : Text := "http://www.ibm.com/data/dtd/v11/ibmxhtml1-transitional.dtd"

namespace Doctype

/-- Whether the doctype asks for the layout of old browsers, in which a table does not end a paragraph. -/
def asksForOldLayout (d : Doctype) : Bool :=
  let publicId := d.publicId.map Text.lower
  d.forced || d.name != some "html" ||
    (match publicId with
      | some id =>
        id.isOneOf ["-//w3o//dtd w3 html strict 3.0//en//", "-/w3c/dtd html 4.0 transitional/en", "html"] ||
          oldLayoutIds.any id.startsWith ||
          (d.systemId.isNone && (id.startsWith "-//w3c//dtd html 4.01 frameset//" ||
            id.startsWith "-//w3c//dtd html 4.01 transitional//"))
      | none => false) ||
    (match d.systemId with
      | some id => Text.sameIgnoringCase id oldLayoutSystemId
      | none => false)

end Doctype

namespace Builder

/-- Takes in a doctype, which counts only before everything else. -/
def acceptDoctype (b : Builder) (d : Doctype) : Builder :=
  if b.mode = .initial then
    let (arena, i) := b.arena.add (.doctype (d.name.getD []))
    { b with arena := arena.append Arena.document i, oldLayout := d.asksForOldLayout, mode := .beforeHtml }
  else b

/-- Takes in a token. -/
def acceptToken (b : Builder) (token : Token) : Builder :=
  let drops := b.newlineDrops
  let b := { b with newlineDrops := false, reading := none }
  match token with
  | .doctype d => b.acceptDoctype d
  | .start tag => b.accept (.start tag)
  | .close name => b.accept (.close name)
  | .comment t => b.accept (.comment t)
  | .null => b.accept .null
  | .characters t bare => b.acceptText t bare drops
  | .done => b.accept .done

/-- Whether sections of plain characters are read here. -/
def readsSections (b : Builder) : Bool := !b.stack.isEmpty && b.currentName.space != .html

/-- Takes in a text; `fuel` is more than its length. -/
def readAll : Nat → Builder → Reading → Text → Builder
  | 0, b, _, _ => b
  | fuel + 1, b, reading, t =>
    let step := Token.next (fuel + 1) reading b.readsSections t
    match step.token with
    | none => readAll fuel { b with newlineDrops := false } step.reading step.rest
    | some .done => b.acceptToken .done
    | some token =>
      let b := b.acceptToken token
      readAll fuel b (b.reading.getD step.reading) step.rest

end Builder

/-- The nodes of a page, as they were read. -/
def readPage (page : Text) : List ParsedNode :=
  let page := Token.withoutByteOrderMark page
  (Builder.readAll (page.length + 2) .start .ordinary page).arena.toParsed

end LocalePages
