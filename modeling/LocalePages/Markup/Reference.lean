import LocalePages.Markup.EntityTable

/-!
# Character references

Markup may write a character as `&name;`, `&#number;` or `&#xnumber;`. Recovery is part of the format: a number that is no
character stands for U+FFFD, one in the range of the C1 controls for what an old code page had there, some names are read
without their semicolon, and an ampersand that starts no reference stands for itself. Line ends are resolved together with the
references, because the search for a name reads one character beyond what it can use, and a line end that it reads so far is
read in two halves.
-/

namespace LocalePages

namespace Reference

/-- The name of a character and the text that it stands for. -/
structure Name where
  name : Text
  value : Text
  /-- Whether the name is read without a semicolon. -/
  lenient : Bool

/-- All names. -/
def names : List Name :=
  [Entity.capitalNames, Entity.namesAToC, Entity.namesDToG, Entity.namesHToL, Entity.namesMToQ, Entity.namesRToS,
    Entity.namesTToZ].flatten.map fun (name, value) =>
      ⟨name, value.map Char.ofNat, Entity.lenientNames.contains name⟩

/-- The letters that names start with, each with its names. -/
def byLetter : List (Char × List Name) :=
  (names.filterMap (·.name.head?)).eraseDups.map fun c => (c, names.filter (·.name.head? == some c))

/-- The names that a text could start with: those with its first letter. -/
def candidates (t : Text) : List Name := ((t.head?.bind fun c => byLetter.lookup c)).getD []

/-- What the numbers from 0x80 to 0x9f stand for. -/
def oldCodePage : List Nat :=
  [0x20ac, 0x81, 0x201a, 0x192, 0x201e, 0x2026, 0x2020, 0x2021, 0x2c6, 0x2030, 0x160, 0x2039, 0x152, 0x8d, 0x17d, 0x8f, 0x90,
    0x2018, 0x2019, 0x201c, 0x201d, 0x2022, 0x2013, 0x2014, 0x2dc, 0x2122, 0x161, 0x203a, 0x153, 0x9d, 0x17e, 0x178]

/-- The character that a number stands for. -/
def ofNumber (n : Nat) : Char :=
  if n = 0 || n > 0x10ffff || (0xd800 ≤ n && n ≤ 0xdfff) then '\ufffd'
  else if 0x80 ≤ n && n ≤ 0x9f then Char.ofNat (oldCodePage.getD (n - 0x80) n)
  else Char.ofNat n

/-- The value of a digit to base sixteen. -/
def digit? (c : Char) : Option Nat :=
  if c.isDigit then some (c.toNat - '0'.toNat)
  else if 'a' ≤ c && c ≤ 'f' then some (c.toNat - 'a'.toNat + 10)
  else if 'A' ≤ c && c ≤ 'F' then some (c.toNat - 'A'.toNat + 10)
  else none

/-- The value of a digit to a base. -/
def digitOf? (base : Nat) (c : Char) : Option Nat := (digit? c).filter (· < base)

/-- The number that digits spell. -/
def numberOf (base : Nat) (digits : Text) : Nat := digits.foldl (fun n c => n * base + (digitOf? base c).getD 0) 0

/-- What is read at an ampersand: what it stands for, the text that is read next, and whether it starts a number without its
semicolon. -/
structure Found where
  value : Text
  rest : Text
  bare : Bool

/-- An ampersand that starts no reference. -/
def Found.none (rest : Text) : Found := ⟨['&'], rest, false⟩

/-- Reads the digits of a number, after `mark`. Where there is none, nothing is taken. -/
def number (base : Nat) (mark t : Text) : Found :=
  let digits := t.takeWhile fun c => (digitOf? base c).isSome
  let rest := t.dropWhile fun c => (digitOf? base c).isSome
  if digits.isEmpty then .none (mark ++ t)
  else match rest with
    | ';' :: rest => ⟨[ofNumber (numberOf base digits)], rest, false⟩
    | rest => ⟨[ofNumber (numberOf base digits)], rest, true⟩

/-- How many characters two texts have in common from their start on. -/
def common : Text → Text → Nat
  | c :: s, d :: t => if c = d then common s t + 1 else 0
  | _, _ => 0

/-- How many characters of a text agree with a name and the semicolon after it. -/
def Name.agreement (n : Name) (t : Text) : Nat :=
  let k := common n.name t
  if k = n.name.length && (t.drop k).head? == some ';' then k + 1 else k

/-- How many characters a text has that write a name, the semicolon included if it is there; none when the text does not start
with one of the ways to write it. -/
def Name.length? (n : Name) (t : Text) : Option Nat :=
  match n.name.isPrefixOf? t with
  | some (';' :: _) => some (n.name.length + 1)
  | some _ => if n.lenient then some n.name.length else none
  | none => none

/-- The longest name that a text starts with, and how many characters write it. -/
def longest? (t : Text) : Option (Name × Nat) :=
  (candidates t).foldl (fun found n =>
    match n.length? t, found with
    | some k, some (_, k') => if k' < k then some (n, k) else found
    | some k, none => some (n, k)
    | none, _ => found) none

/-- How many characters of a text could still become a name. -/
def reach (t : Text) : Nat := (candidates t).foldl (fun k n => max k (n.agreement t)) 0

/-- The text that is read after a search for a name that saw `seen` characters and took `taken` of them. The last character seen
ended the search, and a carriage return there was read as a line feed. When it comes right after what was taken, it is passed
over as the half of a line end whose other half may follow. After other characters it stays, and a line feed that follows it is
a line end of its own. -/
def afterSearch (taken seen : Nat) (t : Text) : Text :=
  match (t.take seen).drop taken with
  | ['\r'] => t.drop seen
  | back => back.map (fun c => if c = '\r' then '\n' else c) ++ t.drop seen

/-- Reads the longest name. In the value of an attribute a name without its semicolon is no reference before a letter, a digit
or an equals sign. Where there is no name, the search goes on to the end of the letters and digits. -/
def name (inAttribute : Bool) (t : Text) : Found :=
  let seen := reach t + 1
  match longest? t with
  | some (n, taken) =>
    let goesOn := match t.drop taken with
      | c :: _ => c.isAlphanum || c == '='
      | [] => false
    if inAttribute && taken = n.name.length && goesOn then .none (afterSearch 0 seen t)
    else ⟨n.value, afterSearch taken seen t, false⟩
  | none =>
    let more := (t.drop (seen - 1)).takeWhile Char.isAlphanum
    .none (afterSearch 0 (seen + more.length) t)

/-- Reads what follows an ampersand. -/
def read (inAttribute : Bool) : Text → Found
  | '#' :: 'x' :: t => number 16 ['#', 'x'] t
  | '#' :: 'X' :: t => number 16 ['#', 'X'] t
  | '#' :: t => number 10 ['#'] t
  | t => name inAttribute t

/-- Reads text up to the first character that `ends` it: what it says with its references replaced by what they stand for and its
line ends as line feeds, and what is left. `fuel` is at least the length of the text. -/
def resolveUntil (ends : Char → Bool) (inAttribute : Bool) : Nat → Text → Text × Text
  | 0, t => ([], t)
  | _, [] => ([], [])
  | fuel + 1, c :: t =>
    if ends c then ([], c :: t)
    else
      let (value, rest) := match c, t with
        | '&', t => let found := read inAttribute t; (found.value, found.rest)
        | '\r', '\n' :: t => (['\n'], t)
        | '\r', t => (['\n'], t)
        | c, t => ([c], t)
      let (values, rest) := resolveUntil ends inAttribute fuel rest
      (value ++ values, rest)

/-- The text with its references replaced by what they stand for and its line ends as line feeds. -/
def resolve (inAttribute : Bool) (t : Text) : Text := (resolveUntil (fun _ => false) inAttribute t.length t).1

/-- Whether a text starts with a numbered reference that lacks its semicolon. -/
def startsBare : Text → Bool
  | '&' :: t => (read false t).bare
  | _ => false

end Reference

end LocalePages
