import LocalePages.Proofs.ByteOrder
import LocalePages.Proofs.Registration
import Mathlib.Data.Finset.Card
import Mathlib.Data.Prod.Lex

/-!
# Dictionaries after any registrations

A dictionary keeps its entries in the order of their keys, since each new one is put at its place (`Dictionary.inOrder_registerAll`).
After any texts were registered it is thus known entry by entry: each key that was used stands there once, with the first text of it,
in the order of the bytes of domains and hashes, and what a further registration answers is told by the text that is there
(`Dictionary.registerAll_spec`).
-/

namespace LocalePages

namespace DictionaryKey

/-- What the order of keys looks at. -/
def rank (k : DictionaryKey) : Text ×ₗ Text := toLex (k.domain, k.hash)

/-- What the order of keys looks at, in bytes. -/
def bytes (k : DictionaryKey) : Bytes ×ₗ Bytes := toLex (Utf8.encode k.domain, Utf8.encode k.hash)

theorem rank_injective : Function.Injective rank := by
  rintro ⟨domain, hash⟩ ⟨domain', hash'⟩ h
  obtain ⟨rfl, rfl⟩ := Prod.mk.inj (toLex.injective h)
  rfl

/-- The order of keys is that of their domains, and then that of their hashes. -/
theorem before_iff {k l : DictionaryKey} : k.before l = true ↔ k.rank < l.rank := by
  simp only [before, rank, Bool.or_eq_true, Bool.and_eq_true, decide_eq_true_eq, beq_iff_eq, Prod.Lex.toLex_lt_toLex]

/-- Keys in order have their bytes in order. -/
theorem bytes_lt_bytes {k l : DictionaryKey} (h : k.rank < l.rank) : k.bytes < l.bytes := by
  rw [rank, rank, Prod.Lex.toLex_lt_toLex] at h
  rw [bytes, bytes, Prod.Lex.toLex_lt_toLex]
  exact h.imp Utf8.encode_lt_encode fun ⟨hdomain, hhash⟩ => ⟨congrArg Utf8.encode hdomain, Utf8.encode_lt_encode hhash⟩

end DictionaryKey

namespace Dictionary

/-! ## Order -/

/-- Whether the keys of entries are in strict order. -/
def InOrder (entries : List (DictionaryKey × Text)) : Prop := entries.Pairwise fun e f => e.1.rank < f.1.rank

/-- An entry is put at its place. -/
theorem inOrder_place {k : DictionaryKey} {entries : List (DictionaryKey × Text)} (t : Text) (h : InOrder entries)
    (hnew : ∀ e ∈ entries, e.1 ≠ k) : InOrder (place k t entries) := by
  induction entries with
  | nil => exact List.pairwise_singleton _ _
  | cons e rest ih =>
    obtain ⟨l, u⟩ := e
    obtain ⟨hfirst, hrest⟩ := List.pairwise_cons.1 h
    obtain ⟨hne, hnew⟩ := List.forall_mem_cons.1 hnew
    unfold place
    split
    · rename_i hbefore
      have hlt := DictionaryKey.before_iff.1 hbefore
      exact List.pairwise_cons.2 ⟨List.forall_mem_cons.2 ⟨hlt, fun f hf => hlt.trans (hfirst f hf)⟩, h⟩
    · rename_i hbefore
      have hlt : l.rank < k.rank :=
        lt_of_le_of_ne (not_lt.1 (mt DictionaryKey.before_iff.2 hbefore)) (DictionaryKey.rank_injective.ne hne)
      refine List.pairwise_cons.2 ⟨fun f hf => ?_, ih hrest hnew⟩
      obtain rfl | hf := List.mem_cons.1 ((perm_place k t rest).mem_iff.1 hf)
      · exact hlt
      · exact hfirst f hf

/-- A registration keeps the entries in order. -/
theorem inOrder_register {d : Dictionary} (h : InOrder d.entries) (k : DictionaryKey) (t : Text) :
    InOrder (d.register k t).1.entries := by
  unfold register
  split
  · rename_i hkey
    exact inOrder_place t h fun e he hk => by simpa [hk] using List.lookup_eq_none_iff.1 hkey e he
  · exact h

/-- Registering texts keeps the entries in order. -/
theorem inOrder_registerAll {d : Dictionary} (h : InOrder d.entries) (texts : List (DictionaryKey × Text)) :
    InOrder (d.registerAll texts).entries := by
  induction texts generalizing d with
  | nil => exact h
  | cons x texts ih => exact ih (inOrder_register h x.1 x.2)

/-! ## Answers -/

/-- What a registration answers is told by the text that is under its key. -/
theorem register_snd (d : Dictionary) (k : DictionaryKey) (t : Text) :
    (d.register k t).2 = match d.get? k with
      | none => .inserted
      | some owner => if owner = t then .unchanged else .collision owner := by
  unfold register
  cases d.get? k <;> rfl

/-- Whether a registration is the first of its key, repeats the text that is there, or comes after another text. -/
theorem register_snd_iff (d : Dictionary) (k : DictionaryKey) (t : Text) :
    ((d.register k t).2 = .inserted ↔ d.get? k = none) ∧
      ((d.register k t).2 = .unchanged ↔ d.get? k = some t) ∧
      ∀ owner, (d.register k t).2 = .collision owner ↔ d.get? k = some owner ∧ owner ≠ t := by
  rw [register_snd]
  cases d.get? k with
  | none => simp
  | some owner =>
    by_cases hsame : owner = t
    · simp [hsame]
    · simp +contextual [hsame]

/-! ## What is there -/

/-- A dictionary has as many texts as there are different keys that texts were registered under. -/
theorem size_registerAll (texts : List (DictionaryKey × Text)) :
    (empty.registerAll texts).size = (texts.map Prod.fst).toFinset.card := by
  have hnodup : ((empty.registerAll texts).entries.map Prod.fst).Nodup :=
    nodup_registerAll (d := empty) List.nodup_nil texts
  have hkeys : ((empty.registerAll texts).entries.map Prod.fst).toFinset = (texts.map Prod.fst).toFinset := by
    ext k
    rw [List.mem_toFinset, List.mem_toFinset]
    constructor
    · intro hk
      obtain ⟨e, he, rfl⟩ := List.mem_map.1 hk
      exact List.mem_map_of_mem ((mem_of_mem_registerAll he).resolve_left List.not_mem_nil)
    · intro hk
      obtain ⟨x, hx, rfl⟩ := List.mem_map.1 hk
      obtain ⟨t, ht⟩ := Option.isSome_iff_exists.1 (isSome_get?_registerAll empty hx)
      exact List.mem_map.2 ⟨(x.1, t), mem_entries_of_get? ht, rfl⟩
  rw [← hkeys, List.toFinset_card_of_nodup hnodup, List.length_map, size]

/-- After any registrations, a key has the first text that was registered under it, and none when there was none. A further
registration is the first of its key, or repeats the text that owns it, or collides with that text and says so. There are as many
texts as different keys; the entries are the keys with their owners, each once, in strict order of the bytes of their domains
and then of their hashes. -/
theorem registerAll_spec (texts : List (DictionaryKey × Text)) :
    let d := empty.registerAll texts
    (∀ k, d.get? k = texts.lookup k) ∧
      (∀ k t, ((d.register k t).2 = .inserted ↔ ∀ x ∈ texts, x.1 ≠ k) ∧
        ((d.register k t).2 = .unchanged ↔ texts.lookup k = some t) ∧
        ∀ owner, (d.register k t).2 = .collision owner ↔ texts.lookup k = some owner ∧ owner ≠ t) ∧
      d.size = (texts.map Prod.fst).toFinset.card ∧
      (∀ k t, (k, t) ∈ d.entries ↔ texts.lookup k = some t) ∧
      d.entries.Pairwise fun e f => e.1.bytes < f.1.bytes := by
  intro d
  have hget : ∀ k, d.get? k = texts.lookup k := fun k => get?_registerAll empty texts k
  refine ⟨hget, fun k t => ?_, size_registerAll texts, fun k t => ?_, ?_⟩
  · obtain ⟨hinserted, hunchanged, hcollision⟩ := register_snd_iff d k t
    simp only [hget] at hinserted hunchanged hcollision
    refine ⟨hinserted.trans ?_, hunchanged, hcollision⟩
    rw [List.lookup_eq_none_iff]
    exact forall₂_congr fun x _ => by rw [bne_iff_ne, ne_comm]
  · rw [mem_entries_iff (nodup_registerAll (d := empty) List.nodup_nil texts), hget]
  · exact (inOrder_registerAll (d := empty) List.Pairwise.nil texts).imp DictionaryKey.bytes_lt_bytes

end Dictionary

end LocalePages
