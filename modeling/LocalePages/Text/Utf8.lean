import LocalePages.Text.Basic

/-!
# UTF-8

Texts as bytes and back. Reading takes one character at a time from the front of the bytes; where no character stands, the
longest start of one is passed over as a unit, so that a lenient reader replaces each such unit by one U+FFFD.
-/

namespace LocalePages

/-- A string of bytes. -/
abbrev Bytes := List UInt8

namespace Utf8

/-- The bytes of a text. -/
def encode (t : Text) : Bytes := t.flatMap String.utf8EncodeChar

/-- How many bytes a text has. -/
def size (t : Text) : Nat := t.foldl (fun n c => n + c.utf8Size) 0

/-- The bytes that may follow a lead byte, as a closed range, and how many bytes follow it in all; none for a byte that leads no
character of several bytes. -/
def follow? (lead : UInt8) : Option (UInt8 × UInt8 × Nat) :=
  if 0xC2 ≤ lead && lead ≤ 0xDF then some (0x80, 0xBF, 1)
  else if lead = 0xE0 then some (0xA0, 0xBF, 2)
  else if lead = 0xED then some (0x80, 0x9F, 2)
  else if 0xE1 ≤ lead && lead ≤ 0xEF then some (0x80, 0xBF, 2)
  else if lead = 0xF0 then some (0x90, 0xBF, 3)
  else if 0xF1 ≤ lead && lead ≤ 0xF3 then some (0x80, 0xBF, 3)
  else if lead = 0xF4 then some (0x80, 0x8F, 3)
  else none

/-- What a reader is in the middle of: the value so far, the range of the next byte, and how many bytes are still to come. -/
structure Pending where
  value : Nat
  low : UInt8
  high : UInt8
  left : Nat

/-- Starts to read a character at a byte that stands at the front of one. -/
def begin? (b : UInt8) : Option (Char ⊕ Pending) :=
  if b < 0x80 then some (.inl (Char.ofNat b.toNat))
  else (follow? b).map fun (low, high, left) =>
    let bits := if left = 1 then b.toNat - 0xC0 else if left = 2 then b.toNat - 0xE0 else b.toNat - 0xF0
    .inr ⟨bits, low, high, left⟩

/-- Reads bytes, `none` standing for each unit that is no character. `pending` is the character under way. -/
def units (pending : Option Pending) : Bytes → List (Option Char)
  | [] => if pending.isSome then [none] else []
  | b :: rest =>
    match pending with
    | some p =>
      if p.low ≤ b && b ≤ p.high then
        let value := p.value * 64 + (b.toNat - 0x80)
        if p.left = 1 then some (Char.ofNat value) :: units none rest
        else units (some ⟨value, 0x80, 0xBF, p.left - 1⟩) rest
      else
        none :: match begin? b with
          | none => none :: units none rest
          | some (.inl c) => some c :: units none rest
          | some (.inr p) => units (some p) rest
    | none =>
      match begin? b with
      | none => none :: units none rest
      | some (.inl c) => some c :: units none rest
      | some (.inr p) => units (some p) rest

/-- The text that the bytes spell, if they are UTF-8. -/
def decode? (bytes : Bytes) : Option Text := (units none bytes).mapM id

/-- The text that the bytes spell, with U+FFFD for each unit that is no character. -/
def decodeLossy (bytes : Bytes) : Text := (units none bytes).map fun unit => unit.getD '\ufffd'

end Utf8

end LocalePages
