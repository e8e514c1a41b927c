import LocalePages.Text.Utf8
import Mathlib.Data.Char
import Mathlib.Data.List.Lex

/-!
# The order of bytes

Texts are in the order of their bytes: the bytes of a character come before those of a greater one, whatever follows either
(`Utf8.utf8EncodeChar_append_lt`), so that the bytes of a text come before those of a greater text (`Utf8.encode_lt_encode`). Lists of
names are in this order name by name (`Utf8.map_encode_lt_map_encode`).
-/

namespace LocalePages

namespace Utf8

/-- Small numbers are compared as bytes first. -/
theorem ofNat_cons_lt_iff {m n : Nat} (hm : m < 256) (hn : n < 256) {rest rest' : Bytes} :
    UInt8.ofNat m :: rest < UInt8.ofNat n :: rest' ↔ m < n ∨ m = n ∧ rest < rest' := by
  have hsmall : ∀ {k : Nat}, k < 256 → (UInt8.ofNat k).toNat = k := fun hk => by rw [UInt8.toNat_ofNat', Nat.mod_eq_of_lt hk]
  rw [List.cons_lt_cons_iff, UInt8.lt_iff_toNat_lt, ← UInt8.toNat_inj, hsmall hm, hsmall hn]

/-- The bytes of a character come before those of a greater one. -/
theorem utf8EncodeChar_append_lt {c d : Char} (h : c < d) (rest rest' : Bytes) :
    String.utf8EncodeChar c ++ rest < String.utf8EncodeChar d ++ rest' := by
  have hlt : c.val.toNat < d.val.toNat := h
  have hbound : d.val.toNat < 0x110000 := by
    rcases d.valid with hd | ⟨-, hd⟩ <;> omega
  unfold String.utf8EncodeChar
  generalize c.val.toNat = v at hlt ⊢
  generalize d.val.toNat = w at hlt hbound ⊢
  -- the values are cut six bits at a time, from their ends
  have htwice : ∀ n : Nat, n / 4096 = n / 64 / 64 := by omega
  have hthrice : ∀ n : Nat, n / 262144 = n / 64 / 64 / 64 := by omega
  dsimp only
  -- a longer character starts with a greater byte; of two as long ones the first byte that is different is smaller
  split_ifs <;> simp (disch := omega) only [List.cons_append, List.nil_append, ofNat_cons_lt_iff, htwice, hthrice] <;> omega

/-- The bytes of a text come before those of a greater one. -/
theorem encode_lt_encode {t u : Text} (h : t < u) : encode t < encode u := by
  induction t generalizing u with
  | nil =>
    cases u with
    | nil => exact absurd h (List.not_lt_nil _)
    | cons d u =>
      obtain ⟨first, more, hbytes⟩ := List.exists_cons_of_ne_nil (String.utf8EncodeChar_ne_nil (c := d))
      rw [encode, encode, List.flatMap_cons, hbytes]
      exact List.nil_lt_cons _ _
  | cons c t ih =>
    cases u with
    | nil => exact absurd h (List.not_lt_nil _)
    | cons d u =>
      rw [encode, encode, List.flatMap_cons, List.flatMap_cons]
      rcases List.cons_lt_cons_iff.1 h with hfirst | ⟨rfl, hrest⟩
      · exact utf8EncodeChar_append_lt hfirst _ _
      · exact List.append_left_lt (ih hrest)

/-- Texts in order have their bytes in order. -/
theorem map_encode_lt_map_encode {texts others : List Text} (h : texts < others) : texts.map encode < others.map encode := by
  induction texts generalizing others with
  | nil =>
    cases others with
    | nil => exact absurd h (List.not_lt_nil _)
    | cons u others => exact List.nil_lt_cons _ _
  | cons t texts ih =>
    cases others with
    | nil => exact absurd h (List.not_lt_nil _)
    | cons u others =>
      rw [List.map_cons, List.map_cons, List.cons_lt_cons_iff]
      exact (List.cons_lt_cons_iff.1 h).imp encode_lt_encode fun ⟨hfirst, hrest⟩ => ⟨congrArg encode hfirst, ih hrest⟩

end Utf8

end LocalePages
