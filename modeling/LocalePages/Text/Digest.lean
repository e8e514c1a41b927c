import LocalePages.Text.Utf8

/-!
# The identity of a canonical text

A translatable text is known by the first six hexadecimal digits of the SHA-1 digest of its UTF-8 form. The digest is computed
block by block over words of 32 bits, whose addition wraps.
-/

namespace LocalePages

namespace Digest

/-- The five words that a digest is made of. -/
structure Chain where
  a : UInt32
  b : UInt32
  c : UInt32
  d : UInt32
  e : UInt32

/-- The words before the first block. -/
def Chain.initial : Chain := ⟨0x67452301, 0xEFCDAB89, 0x98BADCFE, 0x10325476, 0xC3D2E1F0⟩

/-- Turns a word to the left by some of its bits. -/
def rotate (bits : UInt32) (word : UInt32) : UInt32 := (word <<< bits) ||| (word >>> (32 - bits))

/-- A number as eight bytes, the highest first. -/
def bigEndian (n : Nat) : Bytes := [56, 48, 40, 32, 24, 16, 8, 0].map fun shift => UInt8.ofNat (n >>> shift)

/-- The message with a one bit, zero bits up to a full block less eight bytes, and its length in bits. -/
def padded (message : Bytes) : Bytes :=
  let zeros := (55 + 64 - message.length % 64) % 64
  message ++ [0x80] ++ List.replicate zeros 0 ++ bigEndian (8 * message.length)

/-- The words of a string of bytes, four bytes each, the highest first. -/
def wordsOf : Bytes → List UInt32
  | w :: x :: y :: z :: rest =>
    ((w.toUInt32 <<< 24) ||| (x.toUInt32 <<< 16) ||| (y.toUInt32 <<< 8) ||| z.toUInt32) :: wordsOf rest
  | _ => []

/-- Extends a schedule, kept with the latest word first, by some more words: each is the exclusive or of the words 3, 8, 14 and
16 places before it, turned by one bit. -/
def extend : Nat → List UInt32 → List UInt32
  | 0, schedule => schedule
  | more + 1, schedule =>
    let back (k : Nat) := schedule.getD (k - 1) 0
    extend more (rotate 1 (back 3 ^^^ back 8 ^^^ back 14 ^^^ back 16) :: schedule)

/-- One of the eighty rounds of a block: the round's number and its word of the schedule. -/
def Chain.round (s : Chain) (step : UInt32 × Nat) : Chain :=
  let (word, t) := step
  let (mix, constant) : UInt32 × UInt32 :=
    if t < 20 then ((s.b &&& s.c) ||| (~~~s.b &&& s.d), 0x5A827999)
    else if t < 40 then (s.b ^^^ s.c ^^^ s.d, 0x6ED9EBA1)
    else if t < 60 then ((s.b &&& s.c) ||| (s.b &&& s.d) ||| (s.c &&& s.d), 0x8F1BBCDC)
    else (s.b ^^^ s.c ^^^ s.d, 0xCA62C1D6)
  ⟨rotate 5 s.a + mix + s.e + constant + word, s.a, rotate 30 s.b, s.c, s.d⟩

/-- The words after one more block. -/
def Chain.absorb (s : Chain) (block : List UInt32) : Chain :=
  let schedule := (extend 64 block.reverse).reverse
  let last := schedule.zipIdx.foldl Chain.round s
  ⟨s.a + last.a, s.b + last.b, s.c + last.c, s.d + last.d, s.e + last.e⟩

/-- Takes the words in blocks of sixteen. -/
def Chain.absorbAll : Nat → Chain → List UInt32 → Chain
  | 0, s, _ => s
  | blocks + 1, s, words => absorbAll blocks (s.absorb (words.take 16)) (words.drop 16)

/-- A digit to base sixteen for the four lowest bits of a word. -/
def hexDigit (word : UInt32) : Char := Nat.digitChar (word &&& 15).toNat

/-- The eight digits of a word. -/
def hexWord (word : UInt32) : Text :=
  ([28, 24, 20, 16, 12, 8, 4, 0] : List UInt32).map fun shift => hexDigit (word >>> shift)

/-- The SHA-1 digest of a string of bytes, in hexadecimal digits. -/
def sha1 (message : Bytes) : Text :=
  let words := wordsOf (padded message)
  let s := Chain.absorbAll (words.length / 16) .initial words
  hexWord s.a ++ hexWord s.b ++ hexWord s.c ++ hexWord s.d ++ hexWord s.e

end Digest

/-- The number of digits that name a text. -/
def hashLength : Nat := 6

/-- The name of a canonical text: the first digits of its digest. The text is taken as it is. -/
def textHash (canonical : Text) : Text := (Digest.sha1 (Utf8.encode canonical)).take hashLength

end LocalePages
