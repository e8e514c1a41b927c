import LocalePages.Text.Quoted

/-!
# JSON values

A value of JSON, and how it is written over several lines. Members of an object keep their order. A number is kept as it was
spelled, so that nothing is decided here about its size. A string whose escapes hold half of a character is no text: such a
string, and an object with such a name in it, is unreadable, which does no harm where nobody asks for it.
-/

namespace LocalePages

/-- A value of JSON. -/
inductive JsonValue where
  | null
  | bool (value : Bool)
  | number (spelled : Text)
  | string (value : Text)
  | array (items : List JsonValue)
  | object (members : List (Text × JsonValue))
  | unreadable

namespace JsonValue

/-- A character as it is written inside the quotes of a string. -/
def writtenChar (c : Char) : Text :=
  if c = '"' then "\\\""
  else if c = '\\' then "\\\\"
  else if c = '\x08' then "\\b"
  else if c = '\x0c' then "\\f"
  else if c = '\n' then "\\n"
  else if c = '\r' then "\\r"
  else if c = '\t' then "\\t"
  else if c.toNat < 0x10 then "\\u000" ++ hexDigits c.toNat
  else if c.toNat < 0x20 then "\\u00" ++ hexDigits c.toNat
  else [c]

/-- A string with its quotes. -/
def writtenString (t : Text) : Text := "\"" ++ t.flatMap writtenChar ++ "\""

/-- The start of a line inside some brackets. -/
def newLine (indent : Text) (depth : Nat) : Text := '\n' :: (List.replicate depth indent).flatten

/-- Parts inside brackets, each on a line of its own. -/
def bracketed (opening closing indent : Text) (depth : Nat) (parts : List Text) : Text :=
  if parts.isEmpty then opening ++ closing
  else opening ++ newLine indent (depth + 1) ++ Text.joinWith ("," ++ newLine indent (depth + 1)) parts ++ newLine indent depth ++
    closing

mutual

/-- A value as it is written inside some brackets, over several lines. What cannot be read is written as nothing. -/
def pretty (indent : Text) (depth : Nat) : JsonValue → Text
  | null => "null"
  | bool true => "true"
  | bool false => "false"
  | number spelled => spelled
  | string value => writtenString value
  | array items => bracketed "[" "]" indent depth (prettyItems indent (depth + 1) items)
  | object members => bracketed "\x7b" "\x7d" indent depth (prettyMembers indent (depth + 1) members)
  | unreadable => "null"

/-- The items of an array as they are written. -/
def prettyItems (indent : Text) (depth : Nat) : List JsonValue → List Text
  | [] => []
  | item :: rest => item.pretty indent depth :: prettyItems indent depth rest

/-- The members of an object as they are written. -/
def prettyMembers (indent : Text) (depth : Nat) : List (Text × JsonValue) → List Text
  | [] => []
  | (name, value) :: rest => (writtenString name ++ ": " ++ value.pretty indent depth) :: prettyMembers indent depth rest

end

end JsonValue

end LocalePages
