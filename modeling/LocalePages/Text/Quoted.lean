import LocalePages.Text.Hidden

/-!
# Quoted text of diagnostics

A diagnostic that names a text puts it in double quotes. Quotes, backslashes and the usual controls are written with a
backslash, and every other character that cannot be told by sight as its code point.
-/

namespace LocalePages

/-- The digits of a number to base sixteen, in small letters. -/
def hexDigits (n : Nat) : Text := Nat.toDigits 16 n

/-- A character as it is written inside the quotes. -/
def quotedChar (c : Char) : Text :=
  if c = '\x00' then "\\0"
  else if c = '\t' then "\\t"
  else if c = '\n' then "\\n"
  else if c = '\r' then "\\r"
  else if c = '"' then "\\\""
  else if c = '\\' then "\\\\"
  else if isHidden c then "\\u\x7b" ++ hexDigits c.toNat ++ "\x7d"
  else [c]

/-- A text as a diagnostic quotes it. -/
def quoted (t : Text) : Text := "\"" ++ t.flatMap quotedChar ++ "\""

end LocalePages
