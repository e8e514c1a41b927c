import LocalePages.Text.Basic

/-!
# String literals

Catalogs and generated sources hold texts between double quotes, with a backslash before what cannot stand for itself. Reading
knows more escapes than writing uses; what is written is read back.
-/

namespace LocalePages

namespace Literal

/-- What a letter means after a backslash. Every character that is not in the list means itself. -/
def escaped (c : Char) : Char :=
  match c with
  | 'n' => '\n'
  | 't' => '\t'
  | 'r' => '\r'
  | 'a' => '\x07'
  | 'b' => '\x08'
  | 'f' => '\x0c'
  | 'v' => '\x0b'
  | other => other

/-- Reads what stands between the quotes of a literal. No quote stands there for itself, and no backslash at the end. -/
def readInside? : Text → Option Text
  | [] => some []
  | '\\' :: c :: rest => (readInside? rest).map (escaped c :: ·)
  | c :: rest => if c = '\\' || c = '"' then none else (readInside? rest).map (c :: ·)

/-- Reads a literal with its quotes. -/
def read? (t : Text) : Option Text :=
  ((Text.dropHead? ['"'] t).bind (Text.dropTail? ['"'])).bind readInside?

/-- A character as it is written between the quotes. A dollar would start a variable. -/
def writtenChar (c : Char) : Text :=
  match c with
  | '\\' => "\\\\"
  | '"' => "\\\""
  | '$' => "\\$"
  | '\n' => "\\n"
  | '\r' => "\\r"
  | '\t' => "\\t"
  | other => [other]

/-- A text as a literal. -/
def written (t : Text) : Text := "\"" ++ t.flatMap writtenChar ++ "\""

end Literal

end LocalePages
