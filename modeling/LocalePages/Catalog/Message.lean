import LocalePages.Text.Blank

/-!
# Messages

A catalog is the list of its messages. A message says how a text is translated, in one form or in several for its plurals. Only a
live message that nobody has marked as uncertain translates anything; the one with the empty text is the header of the catalog.
-/

namespace LocalePages

/-- A message of a catalog. -/
structure Message where
  context : Option Text
  id : Text
  plural : Option Text
  forms : List Text
  flags : List Text
  obsolete : Bool
  deriving DecidableEq, Repr

namespace Message

/-- The message that says nothing yet. -/
def blank : Message := ⟨none, [], none, [], [], false⟩

/-- Whether its forms are a guess that nobody has confirmed. -/
def isFuzzy (m : Message) : Bool := m.flags.contains ("fuzzy" : Text)

/-- Whether the message holds the headers of its catalog. -/
def isHeader (m : Message) : Bool := m.id.isEmpty && m.context.isNone

/-- The first form, when it can be used. -/
def usableForm? (m : Message) : Option Text :=
  if m.obsolete || m.isFuzzy then none else m.forms.head?.filter fun form => !form.isEmpty

end Message

/-- A catalog. -/
structure Catalog where
  messages : List Message
  deriving DecidableEq, Repr

namespace Catalog

/-- The live messages whose forms are a guess; the header can be one of them. -/
def fuzzyMessages (c : Catalog) : List Message := c.messages.filter fun m => !m.obsolete && m.isFuzzy

/-- The form of a text without context: the first one that can be used. -/
def usableForm? (c : Catalog) (id : Text) : Option Text :=
  (c.messages.filter fun m => m.context.isNone && !m.isHeader && m.id == id).findSome? Message.usableForm?

/-- The headers that a text holds, one on a line, with their names in small letters. -/
def headers (t : Text) : List (Text × Text) :=
  ((t.lines.map Text.trim).filter fun line => !line.isEmpty).filterMap fun line =>
    (Text.cutAt? ':' line).map fun (name, value) => (Text.lower name.trim, value.trim)

end Catalog

end LocalePages
