import LocalePages.Text.Basic

/-!
# Words of scripts

A project can bring its tools as small scripts for a shell. A script is made of words, and a word of parts: text as it stands, and
parameters that a value takes the place of. Quotes keep the characters of a part from meaning anything, and a value in one piece.
-/

namespace LocalePages

/-- A thing that has a value while a script runs. -/
inductive ShellParameter where
  | variable (name : Text)
  | position (n : Nat)
  | all
  | joined
  | count
  | status
  | process
  deriving DecidableEq, Repr

/-- What is made of a value: nothing, the rest after or before what a pattern stands for, or another text when it is empty. -/
inductive ParameterUse where
  | value
  | withoutHead (longest : Bool) (pattern : Text)
  | withoutTail (longest : Bool) (pattern : Text)
  | orElse (default : Text)
  deriving DecidableEq, Repr

/-- A part of a word. -/
inductive WordPart where
  | text (t : Text) (isQuoted : Bool)
  | parameter (p : ShellParameter) (use : ParameterUse) (isQuoted : Bool)
  deriving DecidableEq, Repr

/-- A word. -/
abbrev ShellWord := List WordPart

namespace ShellWord

/-- The number that digits spell. -/
def numberOf (digits : Text) : Nat := digits.foldl (fun n digit => 10 * n + (digit.toNat - '0'.toNat)) 0

/-- Whether a character can be in a name. -/
def isNameChar (c : Char) : Bool := c.isAlphanum || c == '_'

/-- Whether a character ends a word when it is not quoted. -/
def isBreak (c : Char) : Bool := (" \t\n;&|()<>".toList).contains c

/-- Reads a parameter by its name or sign. -/
def readParameter? : Text → Option (ShellParameter × Text)
  | [] => none
  | c :: rest =>
    if c = '@' then some (.all, rest)
    else if c = '*' then some (.joined, rest)
    else if c = '#' then some (.count, rest)
    else if c = '?' then some (.status, rest)
    else if c = '$' then some (.process, rest)
    else if c.isDigit then some (.position (c.toNat - '0'.toNat), rest)
    else if isNameChar c then some (.variable ((c :: rest).takeWhile isNameChar), (c :: rest).dropWhile isNameChar)
    else none

/-- What stands after a parameter in braces. -/
def useOf : Text → ParameterUse
  | '#' :: '#' :: pattern => .withoutHead true pattern
  | '#' :: pattern => .withoutHead false pattern
  | '%' :: '%' :: pattern => .withoutTail true pattern
  | '%' :: pattern => .withoutTail false pattern
  | ':' :: '-' :: default => .orElse default
  | _ => .value

/-- Reads what stands after a dollar; a dollar alone is text. -/
def readDollar (isQuoted : Bool) (t : Text) : WordPart × Text :=
  let plain : WordPart × Text := (.text "$" isQuoted, t)
  match t with
  | '\x7b' :: inside =>
    match Text.cutAt? '\x7d' inside with
    | none => plain
    | some (inside, rest) =>
      match readParameter? inside with
      | some (p, use) => (.parameter p (useOf use) isQuoted, rest)
      | none => plain
  | t =>
    match readParameter? t with
    | some (p, rest) => (.parameter p .value isQuoted, rest)
    | none => plain

/-- Whether a character means itself after a backslash between double quotes. -/
def isEscapable (c : Char) : Bool := ("$`\"\\\n".toList).contains c

/-- Reads what stands between double quotes, and the closing one. The fuel is a bound of what is left. -/
def readQuoted? : Nat → Text → Option (ShellWord × Text)
  | 0, _ => none
  | _, [] => none
  | fuel + 1, c :: rest =>
    if c = '"' then some ([], rest)
    else
      let (part, rest) :=
        match c, rest with
        | '\\', d :: rest' => if isEscapable d then (WordPart.text [d] true, rest') else (.text [c] true, rest)
        | '$', rest => readDollar true rest
        | c, rest => (.text [c] true, rest)
      (readQuoted? fuel rest).map fun (parts, rest) => (part :: parts, rest)

/-- Reads a word. A quote that is not closed is a fault. -/
def read? : Nat → Text → Option (ShellWord × Text)
  | 0, t => some ([], t)
  | _, [] => some ([], [])
  | fuel + 1, c :: rest =>
    if isBreak c then some ([], c :: rest)
    else
      let piece : Option (List WordPart × Text) :=
        match c, rest with
        | '\'', rest => (Text.cutAt? '\'' rest).map fun (inside, rest) => ([WordPart.text inside true], rest)
        | '"', rest => (readQuoted? (rest.length + 1) rest).map fun (parts, rest) => (WordPart.text [] true :: parts, rest)
        | '\\', d :: rest => some (if d = '\n' then [] else [WordPart.text [d] true], rest)
        | '$', rest =>
          let (part, rest) := readDollar false rest
          some ([part], rest)
        | c, rest => some ([WordPart.text [c] false], rest)
      match piece with
      | none => none
      | some (parts, rest) => (read? fuel rest).map fun (more, rest) => (parts ++ more, rest)

/-- The text of a part that is text without quotes. -/
def plainPart? : WordPart → Option Text
  | .text t false => some t
  | _ => none

/-- The text of a word that is nothing but text without quotes. -/
def plain? (w : ShellWord) : Option Text := (w.mapM plainPart?).map List.flatten

/-- Whether a part is a character of a name as it stands. -/
def isNamePart : WordPart → Bool
  | .text [c] false => isNameChar c
  | _ => false

/-- The name and the value of a word that gives a variable a value. -/
def assignment? (w : ShellWord) : Option (Text × ShellWord) :=
  match (plain? (w.takeWhile isNamePart)).getD [], w.dropWhile isNamePart with
  | c :: name, WordPart.text ['='] false :: value => if c.isDigit then none else some (c :: name, value)
  | _, _ => none

end ShellWord

end LocalePages
