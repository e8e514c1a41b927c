import LocalePages.Text.Basic

/-!
# Dictionaries

A dictionary gives back the text that a hash stands for. Its keys are a domain and a hash, and its entries are kept in the order
of their keys. The first text that is registered under a key stays there: another text with the same key is a collision.
-/

namespace LocalePages

/-- The identity of a text. -/
structure DictionaryKey where
  domain : Text
  hash : Text
  deriving DecidableEq, Repr

namespace DictionaryKey

/-- A key as it is written. -/
def written (k : DictionaryKey) : Text := k.domain ++ ":#" ++ k.hash

/-- The order of keys: by domain, then by hash. -/
def before (k l : DictionaryKey) : Bool := decide (k.domain < l.domain) || (k.domain == l.domain && decide (k.hash < l.hash))

end DictionaryKey

/-- What became of a text that was registered. -/
inductive Registration where
  | inserted
  | unchanged
  | collision (existing : Text)
  deriving DecidableEq, Repr

/-- A dictionary: texts by key, in the order of their keys. -/
structure Dictionary where
  entries : List (DictionaryKey × Text)
  deriving DecidableEq, Repr

namespace Dictionary

/-- The dictionary without entries. -/
def empty : Dictionary := ⟨[]⟩

/-- The text under a key. -/
def get? (d : Dictionary) (k : DictionaryKey) : Option Text := d.entries.lookup k

/-- Entries with one more at its place. -/
def place (k : DictionaryKey) (t : Text) : List (DictionaryKey × Text) → List (DictionaryKey × Text)
  | [] => [(k, t)]
  | (l, u) :: rest => if k.before l then (k, t) :: (l, u) :: rest else (l, u) :: place k t rest

/-- Registers a text under a key. What is there already stays. -/
def register (d : Dictionary) (k : DictionaryKey) (t : Text) : Dictionary × Registration :=
  match d.get? k with
  | none => (⟨place k t d.entries⟩, .inserted)
  | some existing => (d, if existing = t then .unchanged else .collision existing)

/-- How many texts there are. -/
def size (d : Dictionary) : Nat := d.entries.length

/-- Whether there is no text. -/
def isEmpty (d : Dictionary) : Bool := d.entries.isEmpty

end Dictionary

end LocalePages
