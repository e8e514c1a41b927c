import LocalePages.Catalog.Reader
import LocalePages.Json.Value
import LocalePages.Members

/-!
# Message maps

Scripts in a browser get what catalogs say as one object of JSON: each live message under its text, with one form or with all of
them, and the headers of the catalog under the empty text. A text that comes again keeps its place and takes what came last.
-/

namespace LocalePages

/-- What a message map says of a text. -/
inductive MessageValue where
  | headers (members : List (Text × Text))
  | single (form : Text)
  | several (forms : List Text)
  deriving DecidableEq, Repr

/-- What a message puts into the map; none for a message without a form. -/
def Message.value? (m : Message) : Option MessageValue :=
  match m.forms with
  | [] => none
  | first :: rest =>
    if m.isHeader then some (.headers (Members.ofPairs (Catalog.headers first)))
    else if rest.isEmpty then some (.single first)
    else some (.several (first :: rest))

/-- A value as JSON. -/
def MessageValue.json : MessageValue → JsonValue
  | .headers members => .object (members.map fun (name, value) => (name, .string value))
  | .single form => .string form
  | .several forms => .array (forms.map .string)

/-- What a message map says of each text. -/
abbrev MessageMap := List (Text × MessageValue)

namespace MessageMap

/-- The map of a catalog. -/
def ofCatalog (c : Catalog) : MessageMap :=
  Members.ofPairs ((c.messages.filter fun m => !m.obsolete).filterMap fun m => m.value?.map fun value => (m.id, value))

/-- The map of a catalog that is still to be read. -/
def ofText (t : Text) : Except CatalogError MessageMap := (Catalog.parse t).map ofCatalog

/-- The map as a file holds it. -/
def written (map : MessageMap) : Text :=
  (JsonValue.object (map.map fun (id, value) => (id, value.json))).pretty "    " 0

end MessageMap

end LocalePages
