import LocalePages.Text.Basic

/-!
# Patterns

A pattern stands for a class of paths. A question mark stands for a character and a star for any number of them, slashes and dots
not excepted; two stars that are a whole component stand for any number of components; brackets list the characters that may
stand, or after an exclamation mark may not stand. Nothing takes away the meaning of a character but brackets around it.
-/

namespace LocalePages

/-- A part of a pattern. Classes of characters are unions of closed ranges. -/
inductive GlobToken where
  | char (c : Char)
  | anyChar
  | anyText
  | anyFolders
  | oneOf (ranges : List (Char × Char))
  | noneOf (ranges : List (Char × Char))
  deriving DecidableEq, Repr

/-- What can be wrong with a pattern. -/
inductive GlobFault where
  | wildcards
  | recursion
  | range
  deriving DecidableEq, Repr

/-- Why a text is no pattern; positions are counted from zero. -/
structure GlobError where
  position : Nat
  fault : GlobFault
  deriving DecidableEq, Repr

/-- What a diagnostic says of a fault. -/
def GlobFault.message : GlobFault → Text
  | .wildcards => "wildcards are either regular `*` or recursive `**`"
  | .recursion => "recursive wildcards must form a single path component"
  | .range => "invalid range pattern"

/-- What a diagnostic says of a text that is no pattern. -/
def GlobError.message (e : GlobError) : Text :=
  "Pattern syntax error near position " ++ Text.ofNat e.position ++ ": " ++ e.fault.message

/-- A pattern. -/
structure GlobPattern where
  tokens : List GlobToken
  deriving DecidableEq, Repr

namespace GlobPattern

/-- The ranges that stand between brackets. -/
def ranges : Text → List (Char × Char)
  | low :: '-' :: high :: rest => (low, high) :: ranges rest
  | c :: rest => (c, c) :: ranges rest
  | [] => []

/-- Reads a class after its opening bracket. The first character in it may be a closing bracket. -/
def readClass? : Text → Option (GlobToken × Text)
  | '!' :: c :: rest => (Text.cutAt? ']' rest).map fun (inside, rest) => (.noneOf (ranges (c :: inside)), rest)
  | c :: rest =>
    if c = '!' then none else (Text.cutAt? ']' rest).map fun (inside, rest) => (.oneOf (ranges (c :: inside)), rest)
  | [] => none

/-- Reads a pattern from a position on; `before` is the character before it, and the fuel is a bound of what is left. -/
def readFrom : Nat → Nat → Option Char → Text → Except GlobError (List GlobToken)
  | 0, _, _, _ => .ok []
  | _, _, _, [] => .ok []
  | fuel + 1, position, before, c :: rest =>
    if c = '?' then (readFrom fuel (position + 1) (some c) rest).map (.anyChar :: ·)
    else if c = '[' then
      match readClass? rest with
      | none => .error ⟨position, .range⟩
      | some (token, after) =>
        (readFrom fuel (position + 1 + (rest.length - after.length)) (some ']') after).map (token :: ·)
    else if c = '*' then
      match rest with
      | '*' :: '*' :: _ => .error ⟨position + 2, .wildcards⟩
      | '*' :: rest =>
        if before.isSome && before != some '/' then .error ⟨position - 1, .recursion⟩
        else
          match rest with
          | [] => .ok [.anyFolders]
          | '/' :: rest => (readFrom fuel (position + 3) (some '/') rest).map (.anyFolders :: ·)
          | _ => .error ⟨position + 2, .recursion⟩
      | rest => (readFrom fuel (position + 1) (some c) rest).map (.anyText :: ·)
    else (readFrom fuel (position + 1) (some c) rest).map (.char c :: ·)

/-- Reads a pattern. -/
def parse (t : Text) : Except GlobError GlobPattern := (readFrom t.length 0 none t).map GlobPattern.mk

/-- Whether a character is in a class. -/
def inRanges (c : Char) (ranges : List (Char × Char)) : Bool := ranges.any fun (low, high) => low ≤ c && c ≤ high

/-- Whether a character can stand for a token that stands for one character. -/
def fits (c : Char) : GlobToken → Bool
  | .char d => c == d
  | .anyChar => true
  | .anyText => false
  | .anyFolders => false
  | .oneOf ranges => inRanges c ranges
  | .noneOf ranges => !inRanges c ranges

/-! ## Comparing

What is left of a text after some of its characters is an end of it. The ends of a text are marked, from the text itself to the
empty one, and each token changes the marks of what comes after it.
-/

/-- The marks of the ends that a token for one character starts. -/
def beforeChar (token : GlobToken) : Text → List Bool → List Bool
  | c :: t, _ :: marks => (fits c token && marks.headD false) :: beforeChar token t marks
  | _, _ => [false]

/-- The marks of the ends that hold a marked one, themselves included. -/
def beforeAny : List Bool → List Bool
  | [] => []
  | mark :: marks =>
    let later := beforeAny marks
    (mark || later.headD false) :: later

/-- The marks of the ends that hold a marked one after a slash, and of all ends when the empty one is marked. -/
def beforeSlash : Text → List Bool → List Bool
  | c :: t, _ :: marks =>
    let later := beforeSlash t marks
    ((c == '/' && marks.headD false) || later.headD false) :: later
  | _, marks => marks

/-- The marks of the ends that tokens stand for. -/
def marksFrom : List GlobToken → Text → List Bool
  | [], t => (t.map fun _ => false) ++ [true]
  | .anyText :: rest, t => beforeAny (marksFrom rest t)
  | .anyFolders :: rest, t =>
    let marks := marksFrom rest t
    List.zipWith (· || ·) marks (beforeSlash t marks)
  | token :: rest, t => beforeChar token t (marksFrom rest t)

/-- Whether the pattern stands for a text. -/
def covers (p : GlobPattern) (t : Text) : Bool := (marksFrom p.tokens t).headD false

/-- The text that a pattern without wildcards stands for. -/
def literal? (p : GlobPattern) : Option Text := p.tokens.mapM fun
  | .char c => some c
  | _ => none

/-- Whether the pattern stands for any number of folders. -/
def isRecursive (p : GlobPattern) : Bool := p.tokens.contains .anyFolders

/-- The patterns among texts. -/
def parseAll (texts : List Text) : List GlobPattern := texts.filterMap fun t => (parse t).toOption

end GlobPattern

end LocalePages
