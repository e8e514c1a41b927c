import LocalePages.Json.Value

/-!
# Reading JSON

JSON is read strictly: one value with blanks around it, and nothing that the grammar does not have. How deep values nest is not
limited. A reader gives what it read and what is left.
-/

namespace LocalePages

namespace JsonValue

/-- The blanks of JSON. -/
def isSpace (c : Char) : Bool := c == ' ' || c == '\n' || c == '\t' || c == '\r'

/-- A text without the blanks at its start. -/
def skipSpaces (t : Text) : Text := t.dropWhile isSpace

/-- The value of a digit to base sixteen. -/
def hexValue? (c : Char) : Option Nat :=
  if '0' ≤ c && c ≤ '9' then some (c.toNat - '0'.toNat)
  else if 'a' ≤ c && c ≤ 'f' then some (c.toNat - 'a'.toNat + 10)
  else if 'A' ≤ c && c ≤ 'F' then some (c.toNat - 'A'.toNat + 10)
  else none

/-- The value of four digits to base sixteen. -/
def hexUnit? (digits : List Char) : Option Nat :=
  (digits.mapM hexValue?).map fun values => values.foldl (fun n digit => 16 * n + digit) 0

/-- What a letter means after a backslash. -/
def escaped? (c : Char) : Option Char :=
  match c with
  | '"' => some '"'
  | '\\' => some '\\'
  | '/' => some '/'
  | 'b' => some '\x08'
  | 'f' => some '\x0c'
  | 'n' => some '\n'
  | 'r' => some '\r'
  | 't' => some '\t'
  | _ => none

/-- Reads the inside of a string and its closing quote: the numbers of its characters, or of halves of characters. -/
def readUnits? : Text → Option (List Nat × Text)
  | [] => none
  | '"' :: rest => some ([], rest)
  | '\\' :: 'u' :: a :: b :: c :: d :: rest =>
    match hexUnit? [a, b, c, d], readUnits? rest with
    | some unit, some (units, rest) => some (unit :: units, rest)
    | _, _ => none
  | '\\' :: c :: rest =>
    match escaped? c, readUnits? rest with
    | some c, some (units, rest) => some (c.toNat :: units, rest)
    | _, _ => none
  | c :: rest => if c.toNat < 0x20 then none else (readUnits? rest).map fun (units, rest) => (c.toNat :: units, rest)

/-- Whether a number is the first half of a character. -/
def isHighHalf (n : Nat) : Bool := 0xD800 ≤ n && n ≤ 0xDBFF

/-- Whether a number is the second half of a character. -/
def isLowHalf (n : Nat) : Bool := 0xDC00 ≤ n && n ≤ 0xDFFF

/-- The text that numbers of characters and of halves of characters spell. -/
def joinHalves? : List Nat → Option Text
  | [] => some []
  | n :: rest =>
    if isLowHalf n then none
    else if isHighHalf n then
      match rest with
      | low :: rest =>
        if isLowHalf low then
          (joinHalves? rest).map (Char.ofNat (0x10000 + 0x400 * (n - 0xD800) + (low - 0xDC00)) :: ·)
        else none
      | [] => none
    else (joinHalves? rest).map (Char.ofNat n :: ·)

/-- Reads digits, at least one. -/
def readDigits? (t : Text) : Option (Text × Text) :=
  match t.takeWhile Char.isDigit with
  | [] => none
  | digits => some (digits, t.dropWhile Char.isDigit)

/-- Reads the part of a number before its point. No zero stands before another digit. -/
def readWhole? (t : Text) : Option (Text × Text) :=
  match readDigits? t with
  | some ('0' :: _ :: _, _) => none
  | read => read

/-- Reads the part of a number from its point on, if there is one. -/
def readFraction? : Text → Option (Text × Text)
  | '.' :: rest => (readDigits? rest).map fun (digits, rest) => ('.' :: digits, rest)
  | rest => some ([], rest)

/-- Reads the exponent of a number, if there is one. -/
def readExponent? : Text → Option (Text × Text)
  | c :: rest =>
    if c = 'e' || c = 'E' then
      match rest with
      | s :: digits =>
        if s = '+' || s = '-' then (readDigits? digits).map fun (digits, rest) => (c :: s :: digits, rest)
        else (readDigits? rest).map fun (digits, rest) => (c :: digits, rest)
      | [] => none
    else some ([], c :: rest)
  | [] => some ([], [])

/-- Reads a number as it is spelled. -/
def readNumber? (t : Text) : Option (Text × Text) := do
  let (sign, t) := match t with
    | '-' :: rest => (['-'], rest)
    | rest => ([], rest)
  let (whole, t) ← readWhole? t
  let (fraction, t) ← readFraction? t
  let (exponent, t) ← readExponent? t
  return (sign ++ whole ++ fraction ++ exponent, t)

/-- Reads a word that stands for a value, or else a number. -/
def readPlain? (t : Text) : Option (JsonValue × Text) :=
  match Text.dropHead? "null" t, Text.dropHead? "true" t, Text.dropHead? "false" t with
  | some rest, _, _ => some (.null, rest)
  | _, some rest, _ => some (.bool true, rest)
  | _, _, some rest => some (.bool false, rest)
  | none, none, none => (readNumber? t).map fun (spelled, rest) => (.number spelled, rest)

/-- An object of members with names that can be unreadable. -/
def ofMembers (members : List (Option Text × JsonValue)) : JsonValue :=
  match members.mapM fun (name, value) => name.map fun name => (name, value) with
  | some members => .object members
  | none => .unreadable

mutual

/-- Reads a value. The fuel is a bound of what is left. -/
def readValue? : Nat → Text → Option (JsonValue × Text)
  | 0, _ => none
  | fuel + 1, t =>
    match skipSpaces t with
    | '"' :: rest => (readUnits? rest).map fun (units, rest) => (((joinHalves? units).map string).getD unreadable, rest)
    | '[' :: rest =>
      match skipSpaces rest with
      | ']' :: rest => some (.array [], rest)
      | rest => (readItems? fuel rest).map fun (items, rest) => (.array items, rest)
    | '\x7b' :: rest =>
      match skipSpaces rest with
      | '\x7d' :: rest => some (.object [], rest)
      | rest => (readMembers? fuel rest).map fun (members, rest) => (ofMembers members, rest)
    | rest => readPlain? rest

/-- Reads the items of an array and its closing bracket. -/
def readItems? : Nat → Text → Option (List JsonValue × Text)
  | 0, _ => none
  | fuel + 1, t =>
    match readValue? fuel t with
    | none => none
    | some (item, rest) =>
      match skipSpaces rest with
      | ']' :: rest => some ([item], rest)
      | ',' :: rest => (readItems? fuel rest).map fun (items, rest) => (item :: items, rest)
      | _ => none

/-- Reads the members of an object and its closing bracket. -/
def readMembers? : Nat → Text → Option (List (Option Text × JsonValue) × Text)
  | 0, _ => none
  | fuel + 1, t =>
    match skipSpaces t with
    | '"' :: rest =>
      match readUnits? rest with
      | none => none
      | some (units, rest) =>
        match skipSpaces rest with
        | ':' :: rest =>
          match readValue? fuel rest with
          | none => none
          | some (value, rest) =>
            let member := (joinHalves? units, value)
            match skipSpaces rest with
            | '\x7d' :: rest => some ([member], rest)
            | ',' :: rest => (readMembers? fuel rest).map fun (members, rest) => (member :: members, rest)
            | _ => none
        | _ => none
    | _ => none

end

/-- Reads a text that is a value. -/
def parse? (t : Text) : Option JsonValue :=
  match readValue? (2 * t.length + 1) t with
  | some (value, rest) => if (skipSpaces rest).isEmpty then some value else none
  | none => none

end JsonValue

end LocalePages
