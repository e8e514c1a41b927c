/-!
# Text

A text is the list of its characters: every format of this library is defined character by character, so that a proof about
one is an induction on a list. This module holds the operations that all formats share: cutting a text into lines, taking a
known end off, trimming, comparing without case, and replacing one text inside another.
-/

namespace LocalePages

/-- A text is the list of its characters. -/
abbrev Text := List Char

/-- A literal stands for the list of its characters. -/
instance : Coe String Text := ⟨String.toList⟩

/-- Whether all characters of a text are of a kind is found by going through the text. -/
instance Text.decidableForallMem {p : Char → Prop} [DecidablePred p] (t : Text) : Decidable (∀ c ∈ t, p c) := List.decidableBAll p t

/-- Whether some character of a text is of a kind is found by going through the text. -/
instance Text.decidableExistsMem {p : Char → Prop} [DecidablePred p] (t : Text) : Decidable (∃ c ∈ t, p c) := List.decidableBEx p t

/-- Whether a character is of a kind, if there is one. -/
instance Text.decidableForallMemOption {p : Char → Prop} [DecidablePred p] (c? : Option Char) : Decidable (∀ c ∈ c?, p c) :=
  Option.decidableForallMem c?

namespace Text

/-- The decimal digits of a number. -/
def ofNat (n : Nat) : Text := Nat.toDigits 10 n

/-- The decimal digits of a number, after a minus sign when it is below zero. -/
def ofInt (n : Int) : Text := if n < 0 then '-' :: ofNat n.natAbs else ofNat n.natAbs

/-- What is left of `t` when it starts with `head`. -/
def dropHead? (head t : Text) : Option Text := head.isPrefixOf? t

/-- What is left of `t` when it ends with `tail`. -/
def dropTail? (tail t : Text) : Option Text := (tail.reverse.isPrefixOf? t.reverse).map List.reverse

/-- Whether `t` starts with `head`. -/
def startsWith (t head : Text) : Bool := head.isPrefixOf t

/-- Whether `t` ends with `tail`. -/
def endsWith (t tail : Text) : Bool := tail.isSuffixOf t

/-- Whether `part` occurs somewhere in the text. -/
def holds (part : Text) : Text → Bool
  | [] => part.isEmpty
  | c :: t => part.isPrefixOf (c :: t) || holds part t

/-- A text without the characters of a class at its end. -/
def dropEndWhile (p : Char → Bool) (t : Text) : Text := (t.reverse.dropWhile p).reverse

/-- A text without the characters of a class at either end. -/
def trimWhile (p : Char → Bool) (t : Text) : Text := dropEndWhile p (t.dropWhile p)

/-- The text before the first `c` and the text after it, when `c` occurs. -/
def cutAt? (c : Char) : Text → Option (Text × Text)
  | [] => none
  | d :: t => if d = c then some ([], t) else (cutAt? c t).map fun (a, b) => (d :: a, b)

/-- The text before the last `c` and the text after it, when `c` occurs. -/
def cutAtLast? (c : Char) (t : Text) : Option (Text × Text) :=
  (cutAt? c t.reverse).map fun (a, b) => (b.reverse, a.reverse)

/-- The text with its ASCII capitals made small. -/
def lower (t : Text) : Text := t.map Char.toLower

/-- The text with its ASCII small letters made capital. -/
def upper (t : Text) : Text := t.map Char.toUpper

/-- Whether two texts are the same but for the case of ASCII letters. -/
def sameIgnoringCase (s t : Text) : Bool := lower s == lower t

/-- A line without the carriage return that ends it. -/
def chomp (line : Text) : Text := (dropTail? ['\r'] line).getD line

/-- The lines of a text. A line ends at a line feed, and a carriage return right before that line feed belongs to the end. What
follows the last line feed is a line unless it is empty, and it is kept as it is. -/
def lines (t : Text) : List Text :=
  let pieces := t.splitOn '\n'
  let last := pieces.getLast?.getD []
  pieces.dropLast.map chomp ++ if last.isEmpty then [] else [last]

/-- Replaces occurrences of `old` from the left, after skipping characters of an occurrence already replaced. -/
def replaceAfter (old new : Text) : Nat → Text → Text
  | _, [] => []
  | skip + 1, _ :: t => replaceAfter old new skip t
  | 0, c :: t =>
    if old.isPrefixOf (c :: t) then new ++ replaceAfter old new (old.length - 1) t else c :: replaceAfter old new 0 t

/-- The text with every occurrence of `old` replaced by `new`, from the left and without overlap. `old` is not empty. -/
def replace (old new t : Text) : Text := replaceAfter old new 0 t

/-- The texts joined by a separator. -/
def joinWith (separator : Text) (texts : List Text) : Text := separator.intercalate texts

end Text

end LocalePages
