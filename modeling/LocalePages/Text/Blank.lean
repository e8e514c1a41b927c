import LocalePages.Text.Basic

/-!
# Blanks

Two classes of blank characters are told apart. The narrow one is the blanks of markup: space, tab, line feed, form feed and
carriage return. The wide one is Unicode's White_Space. The canonical form of a translatable text is defined by the narrow
class, so that a no-break space is content and stays.
-/

namespace LocalePages

/-- The blanks that lay markup out: space, tab, line feed, form feed and carriage return. -/
def isBlank (c : Char) : Bool :=
  c == ' ' || c == '\t' || c == '\n' || c == '\x0c' || c == '\r'

/-- Unicode's White_Space. -/
def isWide (c : Char) : Bool :=
  isBlank c || c == '\x0b' || c == '\u0085' || c == '\u00a0' || c == '\u1680' ||
    ('\u2000'.val ≤ c.val && c.val ≤ '\u200a'.val) || c == '\u2028' || c == '\u2029' || c == '\u202f' || c == '\u205f' ||
    c == '\u3000'

namespace Text

/-- A text without white space at its ends. -/
def trim (t : Text) : Text := trimWhile isWide t

/-- A text without white space at its end. -/
def trimEnd (t : Text) : Text := dropEndWhile isWide t

/-- The maximal runs of characters that are not blank, in order. -/
def words (t : Text) : List Text := (t.splitOnP isBlank).filter fun run => !run.isEmpty

/-- The canonical form of a translatable text: its words with a single space between two. -/
def canonical (t : Text) : Text := joinWith [' '] (words t)

/-- Strips the spaces and tabs at the start of every line; `start` tells whether a line starts here. -/
def dedentFrom (start : Bool) : Text → Text
  | [] => []
  | c :: t =>
    if start && (c == ' ' || c == '\t') then dedentFrom true t else c :: dedentFrom (c == '\n') t

/-- A text without the spaces and tabs at the start of its lines. Line ends stay, so that line numbers do. -/
def dedent (t : Text) : Text := dedentFrom true t

end Text

end LocalePages
