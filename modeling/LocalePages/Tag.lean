import LocalePages.Log
import LocalePages.Text.Blank

/-!
# Tags

An element that holds translatable text says so in its marker, an attribute whose value is a list of tags between blanks. A tag is
`[domain:]keyword[#hash]`: the keyword names the attribute that is translated, or is `.` for the element's text; the domain names
the catalogs to look in; the hash is the identity of the text and stands only in pages that were generated.
-/

namespace LocalePages

/-- What a tag is about: the text of the element, or one of its attributes. -/
inductive Keyword where
  | text
  | attribute (name : Text)
  deriving DecidableEq, Repr

/-- A keyword as it is written. -/
def Keyword.written : Keyword → Text
  | .text => "."
  | .attribute name => name

/-- What a tag says. -/
structure Binding where
  domain : Option Text
  keyword : Keyword
  hash : Option Text
  deriving DecidableEq, Repr

/-- Why a tag cannot be read. -/
inductive TagError where
  | invalid (raw : Text)
  deriving DecidableEq, Repr

/-- What a diagnostic says of a tag that cannot be read. -/
def TagError.message : TagError → Text
  | .invalid raw => "Invalid gettext tag: " ++ raw

/-- Whether a character can be in a word of a tag. -/
def isWordChar (c : Char) : Bool := c.isAlphanum || c == '_'

/-- Whether a text is a word of a tag. -/
def isWord (t : Text) : Bool := !t.isEmpty && t.all isWordChar

namespace Binding

/-- A binding as it is written. -/
def written (a : Binding) : Text :=
  (match a.domain with
    | some domain => domain ++ ":"
    | none => []) ++ a.keyword.written ++
  match a.hash with
  | some hash => "#" ++ hash
  | none => []

/-- The domain of a binding on a page with a domain of its own. -/
def domainOr (a : Binding) (default : Text) : Text := a.domain.getD default

/-- Reads a keyword. -/
def keyword? (t : Text) : Option Keyword :=
  if t = "." then some .text else if isWord t then some (.attribute t) else none

/-- Reads a keyword and the hash after it, if there is one. -/
def keywordAndHash? (t : Text) : Option (Keyword × Option Text) :=
  match Text.cutAt? '#' t with
  | some (keyword, hash) => if isWord hash then (keyword? keyword).map fun k => (k, some hash) else none
  | none => (keyword? t).map fun k => (k, none)

/-- Reads a tag. -/
def parse (raw : Text) : Except TagError Binding :=
  let read := match Text.cutAt? ':' raw with
    | some (domain, rest) =>
      if isWord domain then (keywordAndHash? rest).map fun (k, hash) => Binding.mk (some domain) k hash else none
    | none => (keywordAndHash? raw).map fun (k, hash) => Binding.mk none k hash
  match read with
  | some a => .ok a
  | none => .error (.invalid raw)

/-- A marker of some bindings. -/
def writtenAll (bindings : List Binding) : Text := Text.joinWith " " (bindings.map written)

end Binding

/-- A tag as it stands in a marker, with what it says. -/
structure Tag where
  raw : Text
  binding : Binding
  deriving DecidableEq, Repr

namespace Tag

/-- Takes in one more word of a marker: an error is logged for one that is no tag, and a tag that was there before is dropped. -/
def addWord (read : List Tag × Log) (raw : Text) : List Tag × Log :=
  let (tags, log) := read
  if tags.any fun t => t.raw == raw then (tags, log)
  else
    match Binding.parse raw with
    | .ok binding => (tags ++ [⟨raw, binding⟩], log)
    | .error e => (tags, log.error e.message)

/-- The tags of a marker, in order and each once. -/
def ofMarker (marker : Text) (log : Log) : List Tag × Log := (Text.words marker).foldl addWord ([], log)

end Tag

end LocalePages
