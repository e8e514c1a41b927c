import LocalePages.Markup.Reference
import LocalePages.Text.Blank

/-!
# Tokens of markup

A page is read as a run of tokens: start and end tags, comments, doctypes and stretches of text. Every text is some run of
tokens, since what is no tag is text and what cannot be a comment or a doctype is passed over as one. How the text after a start
tag is read hangs on the element it opens (`Reading`): inside a title there are references but no tags, inside a style sheet
neither, and a script ends only where its own text is not inside a comment that opened another script. A carriage return is a
blank like others until text is taken from the page; then it is the end of a line, together with a line feed that follows it.
-/

namespace LocalePages

/-- A doctype. `forced` tells that it is too broken to ask for the standard rules of layout. -/
structure Doctype where
  name : Option Text
  publicId : Option Text
  systemId : Option Text
  forced : Bool
  deriving DecidableEq, Repr

/-- A start tag, its attributes in order and each name once. -/
structure StartTag where
  name : Text
  attrs : List (Text × Text)
  selfClosing : Bool
  deriving DecidableEq, Repr

/-- A token. The characters of a text token are never NUL, which is a token of its own; `bare` tells that they start with a
numbered reference that lacks its semicolon. -/
inductive Token where
  | doctype (d : Doctype)
  | start (tag : StartTag)
  | close (name : Text)
  | comment (text : Text)
  | characters (text : Text) (bare : Bool)
  | null
  | done
  deriving DecidableEq, Repr

/-- How text is read: as ordinary markup, as text with references up to the end tag of an element, as text without references up
to it, as a script, as text to the end of the page, or as the plain characters of a section of foreign markup. -/
inductive Reading where
  | ordinary
  | withReferences (element : Text)
  | raw (element : Text)
  | script
  | toTheEnd
  | inSection
  deriving DecidableEq, Repr

namespace Token

/-- A text with U+FFFD for NUL. -/
def withoutNull (t : Text) : Text := t.map fun c => if c = '\x00' then '\ufffd' else c

/-- The text with its line ends as line feeds. -/
def withLineFeeds : Text → Text
  | '\r' :: '\n' :: t => '\n' :: withLineFeeds t
  | '\r' :: t => '\n' :: withLineFeeds t
  | c :: t => c :: withLineFeeds t
  | [] => []

/-- What a text without references says: its line ends are line feeds, and U+FFFD stands for NUL. -/
def plain (t : Text) : Text := withoutNull (withLineFeeds t)

/-- The text without the byte order mark that it may start with. -/
def withoutByteOrderMark : Text → Text
  | '\ufeff' :: t => t
  | t => t

/-- Whether a character ends the name of a tag. -/
def endsName (c : Char) : Bool := isBlank c || c == '/' || c == '>'

/-! ## Tags -/

/-- The text from the value of an attribute on, after its equals sign. Blanks are passed over, and so is any character that
follows a carriage return and a line feed: as the second half of a line end the line feed is taken together with the character
after it. -/
def fromValue : Text → Text
  | '\r' :: '\n' :: '\r' :: t => fromValue ('\r' :: t)
  | '\r' :: '\n' :: _ :: t => fromValue t
  | c :: t => if isBlank c then fromValue t else c :: t
  | [] => []

/-- The value of an attribute, and what follows it; none when the page ends inside it. A value has quotes, or ends before a blank
or a closing bracket. `fuel` is at least the length of the text. -/
def value? (fuel : Nat) (t : Text) : Option (Text × Text) :=
  let upTo (quote : Char) (t : Text) : Option (Text × Text) :=
    match Reference.resolveUntil (· == quote) true fuel t with
    | (value, _ :: rest) => some (withoutNull value, rest)
    | (_, []) => none
  match fromValue t with
  | '"' :: t => upTo '"' t
  | '\'' :: t => upTo '\'' t
  | t =>
    let (value, rest) := Reference.resolveUntil (fun c => isBlank c || c == '>') true fuel t
    some (withoutNull value, rest)

/-- Attributes with one more at their end; the first of two with one name stays. -/
def addAttr (attrs : List (Text × Text)) (name value : Text) : List (Text × Text) :=
  if attrs.any fun (n, _) => n == name then attrs else attrs ++ [(name, value)]

/-- The attributes of a tag, whether it closes itself, and what follows it; none when the page ends inside the tag. `fuel` is at
least the length of the text. -/
def attrs? : Nat → List (Text × Text) → Text → Option (List (Text × Text) × Bool × Text)
  | 0, _, _ => none
  | fuel + 1, attrs, t =>
    match t.dropWhile isBlank with
    | [] => none
    | '>' :: rest => some (attrs, false, rest)
    | '/' :: '>' :: rest => some (attrs, true, rest)
    | '/' :: rest => attrs? fuel attrs rest
    | c :: t =>
      let ends (c : Char) := endsName c || c == '='
      let name := Text.lower (withoutNull (c :: t.takeWhile fun c => !ends c))
      let t := t.dropWhile fun c => !ends c
      match t.dropWhile isBlank with
      | '=' :: t =>
        match value? fuel t with
        | none => none
        | some (value, rest) => attrs? fuel (addAttr attrs name value) rest
      | _ => attrs? fuel (addAttr attrs name []) t

/-- A tag from its name on: the name, the attributes, whether it closes itself, and what follows. `fuel` is more than the length of
the text. -/
def tag? (fuel : Nat) (t : Text) : Option (StartTag × Text) :=
  let name := Text.lower (withoutNull (t.takeWhile fun c => !endsName c))
  let rest := t.dropWhile fun c => !endsName c
  (attrs? fuel [] rest).map fun (attrs, selfClosing, rest) => (⟨name, attrs, selfClosing⟩, rest)

/-! ## Comments -/

/-- A comment that the end of the page cuts off, without the dashes that would have closed it. -/
def cutOff (t : Text) : Text :=
  (Text.dropTail? "--!" t <|> Text.dropTail? "--" t <|> Text.dropTail? "-" t).getD t

/-- The text of a comment up to the first of its two closings, and what follows; none when it is not closed. -/
def closing? : Text → Option (Text × Text)
  | [] => none
  | '-' :: '-' :: '>' :: rest => some ([], rest)
  | '-' :: '-' :: '!' :: '>' :: rest => some ([], rest)
  | c :: t => (closing? t).map fun (text, rest) => (c :: text, rest)

/-- A comment after its opening dashes. -/
def commentBody (t : Text) : Text × Text :=
  match t with
  | '>' :: rest => ([], rest)
  | '-' :: '>' :: rest => ([], rest)
  | t =>
    match closing? t with
    | some (text, rest) => (plain text, rest)
    | none => (plain (cutOff t), [])

/-- What is read as a comment because it can be nothing else: up to the next closing bracket. -/
def strayBody (t : Text) : Text × Text :=
  match Text.cutAt? '>' t with
  | some (text, rest) => (plain text, rest)
  | none => (plain t, [])

/-! ## Doctypes -/

/-- What follows a doctype that goes on after its last part. -/
def afterDoctype (t : Text) : Text := ((Text.cutAt? '>' t).map Prod.snd).getD []

/-- An identifier in quotes: none when it does not start here; else its text, whether it is closed, and what follows. A closing
bracket ends it too. -/
def identifier? : Text → Option (Text × Bool × Text)
  | q :: t =>
    if q = '"' || q = '\'' then
      let raw := t.takeWhile fun c => c != q && c != '>'
      match t.dropWhile fun c => c != q && c != '>' with
      | c :: rest => if c = q then some (plain raw, true, rest) else some (plain raw, false, c :: rest)
      | [] => some (plain raw, false, [])
    else none
  | [] => none

/-- The end of a doctype with a system identifier, which starts here unless the doctype is broken. -/
def withSystem (d : Doctype) (t : Text) : Doctype × Text :=
  match identifier? t with
  | none => ({ d with forced := true }, afterDoctype t)
  | some (id, closed, rest) =>
    let ends := match rest.dropWhile isBlank with
      | [] => true
      | _ => false
    ({ d with systemId := some id, forced := !closed || ends }, afterDoctype rest)

/-- The end of a doctype with a public identifier, which starts here unless the doctype is broken. -/
def withPublic (d : Doctype) (t : Text) : Doctype × Text :=
  match identifier? t with
  | none => ({ d with forced := true }, afterDoctype t)
  | some (id, closed, rest) =>
    let d := { d with publicId := some id, forced := !closed }
    match rest.dropWhile isBlank with
    | [] => ({ d with forced := true }, [])
    | '>' :: rest => (d, rest)
    | rest => if closed then withSystem d rest else (d, afterDoctype rest)

/-- A doctype after its keyword. What comes right after a carriage return and a line feed is not seen as the word that starts an
identifier. -/
def doctypeBody (t : Text) : Doctype × Text :=
  match t.dropWhile isBlank with
  | [] => (⟨none, none, none, true⟩, [])
  | '>' :: rest => (⟨none, none, none, true⟩, rest)
  | t =>
    let ends (c : Char) := isBlank c || c == '>'
    let name := Text.lower (withoutNull (t.takeWhile fun c => !ends c))
    let afterName := t.dropWhile fun c => !ends c
    let blanks := afterName.takeWhile isBlank
    let rest := afterName.dropWhile isBlank
    let d : Doctype := ⟨some name, none, none, false⟩
    match rest with
    | [] => ({ d with forced := true }, [])
    | '>' :: rest => (d, rest)
    | rest =>
      let keyword := if Text.endsWith blanks "\r\n" then [] else Text.lower (rest.take 6)
      let rest' := (rest.drop 6).dropWhile isBlank
      if keyword = "public" then withPublic d rest'
      else if keyword = "system" then withSystem d rest'
      else ({ d with forced := true }, afterDoctype rest)

/-! ## Text -/

/-- Whether a bracket with this text after it starts anything but text. -/
def opensMarkup : Text → Bool
  | '/' :: t => !t.isEmpty
  | c :: _ => c.isAlpha || c == '!' || c == '?'
  | [] => false

/-- The text before the next markup or NUL, and what follows it. -/
def textRun : Text → Text × Text
  | [] => ([], [])
  | c :: t =>
    if c = '\x00' || (c = '<' && opensMarkup t) then ([], c :: t)
    else
      let (run, rest) := textRun t
      (c :: run, rest)

/-- Whether the text after a bracket is the end tag of an element. -/
def closes (element : Text) : Text → Bool
  | '/' :: t =>
    Text.sameIgnoringCase (t.take element.length) element && match t.drop element.length with
      | c :: _ => endsName c
      | [] => false
  | _ => false

/-- The text before the end tag of an element, and what follows it. -/
def rawRun (element : Text) : Text → Text × Text
  | [] => ([], [])
  | c :: t =>
    if c = '<' && closes element t then ([], c :: t)
    else
      let (run, rest) := rawRun element t
      (c :: run, rest)

/-- Where a script stands. `plain`, in a comment (`escaped`) or in a script inside a comment (`nested`), the latter two with the
number of dashes just read, two at most. The others are between: `opening` after the `<!` of a comment, with its dashes, and
`naming` inside the name of a tag, with the name so far and whether it is read in a nested script. -/
inductive ScriptState where
  | plain
  | bracket
  | opening (dashes : Nat)
  | escaped (dashes : Nat)
  | escapedBracket
  | nested (dashes : Nat)
  | nestedBracket
  | naming (name : Text) (inNested : Bool)
  deriving DecidableEq, Repr

/-- The state of a script after a character of its text. -/
def ScriptState.next (s : ScriptState) (c : Char) : ScriptState :=
  let outside := if c = '<' then ScriptState.bracket else .plain
  let escaped (dashes : Nat) : ScriptState :=
    if c = '-' then .escaped (min 2 (dashes + 1))
    else if c = '<' then .escapedBracket
    else if c = '>' && dashes = 2 then .plain
    else .escaped 0
  let nested (dashes : Nat) : ScriptState :=
    if c = '-' then .nested (min 2 (dashes + 1))
    else if c = '<' then .nestedBracket
    else if c = '>' && dashes = 2 then .plain
    else .nested 0
  match s with
  | .plain => outside
  | .bracket => if c = '!' then .opening 0 else outside
  | .opening dashes => if c = '-' then (if dashes = 0 then .opening 1 else .escaped 2) else outside
  | .escaped dashes => escaped dashes
  | .escapedBracket => if c.isAlpha then .naming [c.toLower] false else escaped 0
  | .nested dashes => nested dashes
  | .nestedBracket => if c = '/' then .naming [] true else nested 0
  | .naming name inNested =>
    if endsName c then
      if inNested == (name == ("script" : Text)) then .escaped 0 else .nested 0
    else if c.isAlpha then .naming (name ++ [c.toLower]) inNested
    else if inNested then nested 0
    else escaped 0

/-- Whether an end tag can end the script here. -/
def ScriptState.mayEnd : ScriptState → Bool
  | .nested _ => false
  | .nestedBracket => false
  | .naming _ inNested => !inNested
  | _ => true

/-- The text of a script before its end tag, and what follows it. -/
def scriptRun (s : ScriptState) : Text → Text × Text
  | [] => ([], [])
  | c :: t =>
    if c = '<' && s.mayEnd && closes "script" t then ([], c :: t)
    else
      let (run, rest) := scriptRun (s.next c) t
      (c :: run, rest)

/-- The characters of a section before its closing brackets or NUL, and what follows them. -/
def sectionRun : Text → Text × Text
  | [] => ([], [])
  | c :: t =>
    if c = '\x00' || Text.startsWith (c :: t) "]]>" then ([], c :: t)
    else
      let (run, rest) := sectionRun t
      (c :: run, rest)

/-! ## The next token -/

/-- What is read in one go: a token, or nothing where the text says nothing, how to read on, and the text that is left. -/
structure Step where
  token : Option Token
  reading : Reading
  rest : Text

/-- A step that reads a token and goes on as in ordinary markup. -/
def Step.of (read : Token × Text) : Step := ⟨some read.1, .ordinary, read.2⟩

/-- A declaration, after its bracket and exclamation mark. A section of plain characters is one only where `sections` says so. -/
def declaration (sections : Bool) (t : Text) : Step :=
  let comment (read : Text × Text) : Step := .of (.comment read.1, read.2)
  match t with
  | '-' :: '-' :: t => comment (commentBody t)
  | t =>
    if Text.lower (t.take 7) = "doctype" then
      let (d, rest) := doctypeBody (t.drop 7)
      .of (.doctype d, rest)
    else if sections && Text.startsWith t "[CDATA[" then ⟨none, .inSection, t.drop 7⟩
    else comment (strayBody t)

/-- The end tag whose name starts the text; nothing when the page ends inside it. `fuel` is more than the length of the
text. -/
def endTag (fuel : Nat) (t : Text) : Step :=
  match tag? fuel t with
  | some (tag, rest) => .of (.close tag.name, rest)
  | none => ⟨none, .ordinary, []⟩

/-- Markup after its opening bracket. `fuel` is more than the length of the text. -/
def markup (fuel : Nat) (sections : Bool) (t : Text) : Step :=
  match t with
  | '!' :: t => declaration sections t
  | '/' :: '>' :: rest => ⟨none, .ordinary, rest⟩
  | '/' :: c :: t =>
    if c.isAlpha then endTag fuel (c :: t)
    else
      let (text, rest) := strayBody (c :: t)
      .of (.comment text, rest)
  | '?' :: _ =>
    let (text, rest) := strayBody t
    .of (.comment text, rest)
  | t =>
    match tag? fuel t with
    | some (tag, rest) => .of (.start tag, rest)
    | none => ⟨none, .ordinary, []⟩

/-- A stretch of text as a token. -/
def stretch (references : Bool) (run : Text) : Token :=
  if references then .characters (withoutNull (Reference.resolve false run)) (Reference.startsBare run)
  else .characters (plain run) false

/-- The stretch of text before an end tag, or that tag when it stands right here. `fuel` is more than the length
of the text. -/
def rawOr (fuel : Nat) (reading : Reading) (references : Bool) (split : Text × Text) : Step :=
  match split with
  | ([], []) => ⟨some .done, reading, []⟩
  | ([], rest) => endTag fuel (rest.drop 2)
  | (run, rest) => ⟨some (stretch references run), reading, rest⟩

/-- Reads a token. After a script the text is taken up anew, so that a byte order mark there is dropped.
`fuel` is more than the length of the text. -/
def next (fuel : Nat) (reading : Reading) (sections : Bool) (t : Text) : Step :=
  match reading with
  | .withReferences element => rawOr fuel reading true (rawRun element t)
  | .raw element => rawOr fuel reading false (rawRun element t)
  | .script =>
    let step := rawOr fuel reading false (scriptRun .plain t)
    match step.token with
    | some (.close _) => { step with rest := withoutByteOrderMark step.rest }
    | _ => step
  | .toTheEnd => if t.isEmpty then ⟨some .done, reading, []⟩ else ⟨some (stretch false t), reading, []⟩
  | .inSection =>
    match t with
    | [] => ⟨some .done, reading, []⟩
    | '\x00' :: rest => ⟨some .null, reading, rest⟩
    | ']' :: ']' :: '>' :: rest => ⟨none, .ordinary, rest⟩
    | t =>
      let (run, rest) := sectionRun t
      ⟨some (.characters (withLineFeeds run) false), reading, rest⟩
  | .ordinary =>
    match t with
    | [] => ⟨some .done, reading, []⟩
    | '\x00' :: rest => ⟨some .null, reading, rest⟩
    | c :: t' =>
      if c = '<' && opensMarkup t' then markup fuel sections t'
      else
        let (run, rest) := textRun t
        ⟨some (stretch true run), reading, rest⟩

end Token

end LocalePages
