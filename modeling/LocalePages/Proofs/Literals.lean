import LocalePages.Catalog.Literal
import LocalePages.Proofs.Texts

/-!
# What stands between the quotes of a literal

A literal is read back whatever its text is, also by a reader that knows more escapes (`Literal.read?_of_spells`). Between its quotes
no quote and no dollar stands for itself: an odd number of backslashes is right before each (`Literal.Escapes`). The backslashes
at the end of its text come in pairs, so that the quote after them ends the literal and no quote before does
(`Literal.written_spec`).
-/

namespace LocalePages

namespace Literal

/-! ## Reading -/

/-- Whether a character is spelled by a backslash and a letter that means it, or by itself, and then it is neither a backslash nor a
quote. -/
def Spells (w : Text) (c : Char) : Prop :=
  (∃ letter, w = ['\\', letter] ∧ escaped letter = c) ∨ (w = [c] ∧ c ≠ '\\' ∧ c ≠ '"')

/-- A character that is spelled between the quotes is read before the rest. -/
theorem readInside?_of_spells {w : Text} {c : Char} (h : Spells w c) (rest : Text) :
    readInside? (w ++ rest) = (readInside? rest).map (c :: ·) := by
  obtain ⟨letter, rfl, rfl⟩ | ⟨rfl, hback, hquote⟩ := h
  · rfl
  · rw [List.singleton_append, readInside?.eq_3 c rest (by simp [hback])]
    simp [hback, hquote]

/-- A text whose characters are spelled one after the other between quotes is read back. -/
theorem read?_of_spells {spelling : Char → Text} (h : ∀ c, Spells (spelling c) c) (t : Text) :
    read? ('"' :: (t.flatMap spelling ++ ['"'])) = some t := by
  have hinside : readInside? (t.flatMap spelling) = some t := by
    induction t with
    | nil => rfl
    | cons c t ih => rw [List.flatMap_cons, readInside?_of_spells (h c), ih, Option.map_some]
  have hquotes : '"' :: (t.flatMap spelling ++ ['"']) = ['"'] ++ (t.flatMap spelling ++ ['"']) := rfl
  rw [read?, hquotes, Text.dropHead?_append, Option.bind_some, Text.dropTail?_append, Option.bind_some, hinside]

/-! ## Writing -/

/-- A character is written with a backslash before a letter that means it, or as itself, and then it is no backslash, quote or
dollar. -/
theorem writtenChar_cases (c : Char) :
    (∃ letter, writtenChar c = ['\\', letter] ∧ escaped letter = c) ∨
      (writtenChar c = [c] ∧ c ≠ '\\' ∧ c ≠ '"' ∧ c ≠ '$') := by
  unfold writtenChar
  split
  all_goals first
    | exact Or.inl ⟨_, rfl, rfl⟩
    | exact Or.inr ⟨rfl, by assumption, by assumption, by assumption⟩

/-- A character is spelled as it is written. -/
theorem spells_writtenChar (c : Char) : Spells (writtenChar c) c :=
  (writtenChar_cases c).imp_right fun ⟨hc, hback, hquote, _⟩ => ⟨hc, hback, hquote⟩

/-- A literal is what is written of its characters, between quotes. -/
theorem written_eq (t : Text) : written t = '"' :: (t.flatMap writtenChar ++ ['"']) := rfl

/-! ## Escapes -/

/-- Whether what comes after a text is escaped: the backslashes at the end of the text are odd in number. -/
def Escapes (before : Text) : Prop := (before.reverse.takeWhile (· == '\\')).length % 2 = 1

instance (before : Text) : Decidable (Escapes before) := inferInstanceAs (Decidable (_ = _))

/-- What is before a text that escapes nothing makes no difference to what the text and more escapes. -/
theorem escapes_append_iff {w : Text} (h : ¬Escapes w) (before : Text) : Escapes (w ++ before) ↔ Escapes before := by
  unfold Escapes at h ⊢
  rw [List.reverse_append, List.takeWhile_append]
  split
  · rename_i hall
    rw [List.length_append, ← hall]
    omega
  · exact Iff.rfl

/-- What is written of a character escapes nothing after it. -/
theorem not_escapes_writtenChar (c : Char) : ¬Escapes (writtenChar c) := by
  obtain ⟨letter, hc, -⟩ | ⟨hc, hback, -⟩ := writtenChar_cases c
  · rw [hc]
    by_cases hletter : letter = '\\' <;> simp [Escapes, hletter]
  · simp [hc, Escapes, hback]

/-- What is written of a text escapes nothing after it: backslashes at its end come in pairs. -/
theorem not_escapes_flatMap_writtenChar (t : Text) : ¬Escapes (t.flatMap writtenChar) := by
  induction t with
  | nil => decide
  | cons c t ih => rwa [List.flatMap_cons, escapes_append_iff (not_escapes_writtenChar c)]

/-- A quote or a dollar in what is written of a character is escaped. -/
theorem escapes_of_writtenChar_eq {c mark : Char} {before after : Text} (hmark : mark = '"' ∨ mark = '$')
    (h : writtenChar c = before ++ mark :: after) : Escapes before := by
  obtain ⟨letter, hc, -⟩ | ⟨hc, -, hquote, hdollar⟩ := writtenChar_cases c <;> rw [hc] at h
  · cases before with
    | nil =>
      obtain rfl : '\\' = mark := (List.cons.inj h).1
      exact absurd hmark (by decide)
    | cons b before =>
      obtain ⟨rfl, hrest⟩ := List.cons.inj h
      obtain ⟨rfl, -⟩ | ⟨-, hnone⟩ := List.singleton_eq_append_iff.1 hrest
      · decide
      · cases hnone
  · obtain ⟨-, hmark'⟩ | ⟨-, hnone⟩ := List.singleton_eq_append_iff.1 h
    · obtain rfl : mark = c := (List.cons.inj hmark').1
      exact (hmark.elim hquote hdollar).elim
    · cases hnone

/-- A quote or a dollar in what is written of a text is escaped. -/
theorem escapes_of_flatMap_writtenChar_eq {t : Text} {mark : Char} {before after : Text} (hmark : mark = '"' ∨ mark = '$')
    (h : t.flatMap writtenChar = before ++ mark :: after) : Escapes before := by
  induction t generalizing before with
  | nil => simp at h
  | cons c t ih =>
    rw [List.flatMap_cons] at h
    obtain ⟨later, rfl, hrest⟩ | ⟨end', hc, hrest⟩ := List.append_eq_append_iff.1 h
    · exact (escapes_append_iff (not_escapes_writtenChar c) later).2 (ih hrest)
    · cases end' with
      | nil =>
        -- the mark would be the first character of the rest, with nothing before it
        have hescapes : Escapes [] := ih hrest.symm
        exact absurd hescapes (by decide)
      | cons d end' =>
        obtain ⟨rfl, -⟩ := List.cons.inj hrest
        exact escapes_of_writtenChar_eq hmark hc

/-! ## Literals -/

/-- A literal is read back. -/
theorem read?_written (t : Text) : read? (written t) = some t := read?_of_spells spells_writtenChar t

theorem written_injective : Function.Injective written := fun s t h =>
  Option.some.inj ((read?_written s).symm.trans ((congrArg read? h).trans (read?_written t)))

/-- What is between the quotes of a literal does not go on to a quote in another one: there it would be escaped. -/
theorem not_flatMap_writtenChar_eq_append {s t : Text} (after : Text) :
    t.flatMap writtenChar ≠ s.flatMap writtenChar ++ '"' :: after := fun h =>
  not_escapes_flatMap_writtenChar s (escapes_of_flatMap_writtenChar_eq (Or.inl rfl) h)

/-- A literal, with what comes after it, determines its text and what comes after it. -/
theorem written_append_inj {s t u v : Text} (h : written s ++ u = written t ++ v) : s = t ∧ u = v := by
  have hinside : s.flatMap writtenChar ++ '"' :: u = t.flatMap writtenChar ++ '"' :: v := by
    simpa [written_eq] using h
  have hsame : s.flatMap writtenChar = t.flatMap writtenChar ∧ u = v := by
    obtain ⟨more, hlonger, hrest⟩ | ⟨more, hlonger, hrest⟩ := List.append_eq_append_iff.1 hinside <;> cases more with
    | cons c more =>
      obtain rfl : '"' = c := (List.cons.inj hrest).1
      exact absurd hlonger (not_flatMap_writtenChar_eq_append more)
    | nil => simpa [eq_comm] using And.intro hlonger hrest
  exact ⟨written_injective (by rw [written_eq, written_eq, hsame.1]), hsame.2⟩

/-- Every text is read back from its literal. Between the quotes of a literal, every quote and every dollar is right after an odd
number of backslashes, and the closing quote is not. So different texts have different literals, and whatever comes after a literal,
it ends where it was written to end. -/
theorem written_spec :
    (∀ t, read? (written t) = some t) ∧
      (∀ t, ∃ inside, written t = '"' :: (inside ++ ['"']) ∧ ¬Escapes inside ∧
        ∀ before mark after, (mark = '"' ∨ mark = '$') → inside = before ++ mark :: after → Escapes before) ∧
      Function.Injective written ∧
      ∀ s t u v, written s ++ u = written t ++ v → s = t ∧ u = v :=
  ⟨read?_written,
    fun t => ⟨t.flatMap writtenChar, written_eq t, not_escapes_flatMap_writtenChar t,
      fun _ _ _ => escapes_of_flatMap_writtenChar_eq⟩,
    written_injective, fun _ _ _ _ => written_append_inj⟩

end Literal

end LocalePages
