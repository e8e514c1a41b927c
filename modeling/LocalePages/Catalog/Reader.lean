import LocalePages.Catalog.Literal
import LocalePages.Catalog.Message

/-!
# Reading catalogs

A catalog is read line by line. What a line says does not depend on the lines around it, except that a literal on its own goes on
with the field above it. A message ends at a blank line, at a comment after its forms, and where the next one starts. A
fault is one of a single line, so that nothing after that line matters.
-/

namespace LocalePages

/-- Why a text is no catalog; lines are counted from one. -/
inductive CatalogError where
  | unexpected (line : Nat) (content : Text)
  | unterminated (line : Nat)
  deriving DecidableEq, Repr

/-- What a diagnostic says of a text that is no catalog. -/
def CatalogError.message : CatalogError → Text
  | .unexpected line content => "line " ++ Text.ofNat line ++ ": unexpected content: " ++ content
  | .unterminated line => "line " ++ Text.ofNat line ++ ": unterminated string"

/-- A field of a message. -/
inductive MessageField where
  | context | id | plural | form
  deriving DecidableEq, Repr

/-- What a line says. -/
inductive CatalogLine where
  | blank
  | nothing
  | comment
  | flags (names : List Text)
  | more (value : Text)
  | field (obsolete : Bool) (name : MessageField) (value : Text)
  deriving DecidableEq, Repr

/-- What can be wrong with a line. -/
inductive LineFault where
  | unexpected
  | unterminated
  deriving DecidableEq, Repr

namespace CatalogLine

/-- The field that a keyword names. -/
def fieldOf? (keyword : Text) : Option MessageField :=
  if keyword = "msgctxt" then some .context
  else if keyword = "msgid" then some .id
  else if keyword = "msgid_plural" then some .plural
  else if keyword = "msgstr" || (keyword.startsWith "msgstr[" && keyword.endsWith "]") then some .form
  else none

/-- Cuts a line at its first white space, which goes. -/
def cutKeyword? : Text → Option (Text × Text)
  | [] => none
  | c :: t => if isWide c then some ([], t) else (cutKeyword? t).map fun (a, b) => (c :: a, b)

/-- Reads a line that is no comment. -/
def readContent (obsolete : Bool) (line : Text) : Except LineFault CatalogLine :=
  if line.startsWith "\"" then
    match Literal.read? line with
    | none => .error .unterminated
    | some value => .ok (.more value)
  else
    match cutKeyword? line with
    | none => .error .unexpected
    | some (keyword, rest) =>
      match Literal.read? rest.trim with
      | none => .error .unterminated
      | some value =>
        match fieldOf? keyword with
        | none => .error .unexpected
        | some name => .ok (.field obsolete name value)

/-- The flags that a line lists between commas. -/
def flagsOf (t : Text) : List Text := ((t.splitOn ',').map Text.trim).filter fun flag => !flag.isEmpty

/-- Reads a line. -/
def read (raw : Text) : Except LineFault CatalogLine :=
  let line := raw.trim
  if line.isEmpty then .ok .blank
  else
    match Text.dropHead? "#~" line with
    | some rest =>
      let rest := rest.dropWhile isWide
      if rest.isEmpty || Text.startsWith rest "|" then .ok .nothing else readContent true rest
    | none =>
      match Text.dropHead? "#," line with
      | some names => .ok (.flags (flagsOf names))
      | none => if line.startsWith "#" then .ok .comment else readContent false line

end CatalogLine

/-- A message that is being read: what it says so far, and its last field. -/
structure MessageDraft where
  message : Message
  last : Option MessageField
  deriving DecidableEq, Repr

namespace MessageDraft

/-- The draft before anything was read. -/
def blank : MessageDraft := ⟨.blank, none⟩

/-- Goes on with a field. -/
def extend (m : Message) (value : Text) : MessageField → Message
  | .context => { m with context := m.context.map (· ++ value) }
  | .id => { m with id := m.id ++ value }
  | .plural => { m with plural := m.plural.map (· ++ value) }
  | .form => { m with forms := m.forms.dropLast ++ (m.forms.getLast?.map (· ++ value)).toList }

/-- Gives a field its value; a form is one more form. -/
def put (m : Message) (value : Text) : MessageField → Message
  | .context => { m with context := some value }
  | .id => { m with id := value }
  | .plural => { m with plural := some value }
  | .form => { m with forms := m.forms ++ [value] }

/-- Whether a field starts a new message after what was read of this one. -/
def endsBefore (d : MessageDraft) : MessageField → Bool
  | .context => d.last.isSome
  | .id => d.last.isSome && d.last != some .context
  | _ => false

end MessageDraft

/-- How far a catalog was read: the messages that are complete, and the one under way. -/
structure CatalogProgress where
  messages : List Message
  draft : MessageDraft
  deriving DecidableEq, Repr

namespace CatalogProgress

/-- The start of a catalog. -/
def start : CatalogProgress := ⟨[], .blank⟩

/-- Ends the message under way. It counts if it has a field. -/
def finish (p : CatalogProgress) : CatalogProgress :=
  ⟨if p.draft.last.isSome then p.messages ++ [p.draft.message] else p.messages, .blank⟩

/-- Ends the message under way if a condition holds. -/
def finishIf (condition : Bool) (p : CatalogProgress) : CatalogProgress := if condition then p.finish else p

/-- Whether the message under way has a form already, so that a comment belongs to the next one. -/
def hasForm (p : CatalogProgress) : Bool := !p.draft.message.forms.isEmpty

/-- Takes in what a line says. -/
def add (p : CatalogProgress) : CatalogLine → Except LineFault CatalogProgress
  | .blank => .ok p.finish
  | .nothing => .ok p
  | .comment => .ok (p.finishIf p.hasForm)
  | .flags names =>
    let p := p.finishIf p.hasForm
    let m := p.draft.message
    .ok { p with draft := { p.draft with message := { m with flags := m.flags ++ names } } }
  | .more value =>
    match p.draft.last with
    | none => .error .unexpected
    | some name => .ok { p with draft := { p.draft with message := MessageDraft.extend p.draft.message value name } }
  | .field obsolete name value =>
    let p := p.finishIf (p.draft.endsBefore name)
    let m := MessageDraft.put p.draft.message value name
    .ok { p with draft := ⟨{ m with obsolete := m.obsolete || obsolete }, some name⟩ }

/-- Reads a line that has this number. -/
def readLine (p : CatalogProgress) (numbered : Text × Nat) : Except CatalogError CatalogProgress :=
  let (raw, number) := numbered
  match CatalogLine.read raw >>= p.add with
  | .ok p => .ok p
  | .error .unexpected => .error (.unexpected number raw)
  | .error .unterminated => .error (.unterminated number)

end CatalogProgress

namespace Catalog

/-- Reads a catalog. -/
def parse (t : Text) : Except CatalogError Catalog :=
  match (t.lines.zipIdx 1).foldlM CatalogProgress.readLine .start with
  | .error e => .error e
  | .ok p => .ok ⟨p.finish.messages⟩

end Catalog

end LocalePages
