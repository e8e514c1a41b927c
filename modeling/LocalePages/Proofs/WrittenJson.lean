import LocalePages.Json.Reader
import LocalePages.Proofs.Texts

/-!
# Reading written JSON

A value of texts is read back as it was written over several lines (`JsonValue.parse?_pretty`): whatever characters its texts and names
hold, however deep it is, and with its members in their order. A string is read back one character at a time
(`JsonValue.readUnits?_writtenChar`). A value in brackets is read part by part: white space before a part is not looked at, and each
part is read back with what comes after it, so that the parts can be put together.
-/

namespace LocalePages

namespace JsonValue

/-! ## Strings -/

/-- A character is written with a backslash before a letter that means it, with its number, or as itself, and then it is no control,
backslash or quote. -/
theorem writtenChar_cases (c : Char) :
    (∃ letter, writtenChar c = ['\\', letter] ∧ letter ≠ 'u' ∧ escaped? letter = some c) ∨
      (∃ a b, writtenChar c = ['\\', 'u', '0', '0', a, b] ∧ hexUnit? ['0', '0', a, b] = some c.toNat) ∨
      (writtenChar c = [c] ∧ c ≠ '"' ∧ c ≠ '\\' ∧ 0x20 ≤ c.toNat) := by
  by_cases hnamed : c ∈ (['"', '\\', '\x08', '\x0c', '\n', '\r', '\t'] : List Char)
  · simp only [List.mem_cons, List.not_mem_nil, or_false] at hnamed
    rcases hnamed with rfl | rfl | rfl | rfl | rfl | rfl | rfl <;> exact Or.inl ⟨_, rfl, by decide, rfl⟩
  · simp only [List.mem_cons, List.not_mem_nil, or_false, not_or] at hnamed
    obtain ⟨hquote, hback, hb, hf, hn, hr, ht⟩ := hnamed
    -- a control without a letter of its own is written with two digits, the first of which is given
    have hlow : ∀ n < 0x10, hexDigits n = [Nat.digitChar n] ∧ hexUnit? ['0', '0', '0', Nat.digitChar n] = some n := by decide
    have hhigh : ∀ n < 0x20, 0x10 ≤ n → hexDigits n = ['1', Nat.digitChar (n % 16)] ∧
        hexUnit? ['0', '0', '1', Nat.digitChar (n % 16)] = some n := by
      decide
    rw [writtenChar, if_neg hquote, if_neg hback, if_neg hb, if_neg hf, if_neg hn, if_neg hr, if_neg ht]
    by_cases hten : c.toNat < 0x10
    · obtain ⟨hdigit, hunit⟩ := hlow c.toNat hten
      exact Or.inr (Or.inl ⟨'0', _, by rw [if_pos hten, hdigit]; rfl, hunit⟩)
    · by_cases htwenty : c.toNat < 0x20
      · obtain ⟨hdigits, hunit⟩ := hhigh c.toNat htwenty (Nat.le_of_not_lt hten)
        exact Or.inr (Or.inl ⟨'1', _, by rw [if_neg hten, if_pos htwenty, hdigits]; rfl, hunit⟩)
      · exact Or.inr (Or.inr ⟨by rw [if_neg hten, if_neg htwenty], hquote, hback, Nat.le_of_not_lt htwenty⟩)

/-- A written character is read as its number. -/
theorem readUnits?_writtenChar {rest left : Text} {units : List Nat} (c : Char) (h : readUnits? rest = some (units, left)) :
    readUnits? (writtenChar c ++ rest) = some (c.toNat :: units, left) := by
  rcases writtenChar_cases c with ⟨letter, hc, hu, hletter⟩ | ⟨a, b, hc, hunit⟩ | ⟨hc, hquote, hback, hcontrol⟩
  · rw [hc]
    simp [readUnits?, hu, hletter, h]
  · rw [hc]
    simp [readUnits?, hunit, h]
  · rw [hc]
    simp [readUnits?, hback, h, Nat.not_lt.2 hcontrol]

/-- What stands between the quotes of a string is read as the numbers of its characters. -/
theorem readUnits?_written (t rest : Text) :
    readUnits? (t.flatMap writtenChar ++ '"' :: rest) = some (t.map Char.toNat, rest) := by
  induction t with
  | nil => rfl
  | cons c t ih => rw [List.flatMap_cons, List.append_assoc, readUnits?_writtenChar c ih, List.map_cons]

/-- No character is half of one. -/
theorem isHalf_toNat (c : Char) : isLowHalf c.toNat = false ∧ isHighHalf c.toNat = false := by
  have hvalid : c.toNat < 0xd800 ∨ 0xdfff < c.toNat ∧ c.toNat < 0x110000 := c.valid
  constructor
  · simp only [isLowHalf, Bool.and_eq_false_iff, decide_eq_false_iff_not]
    omega
  · simp only [isHighHalf, Bool.and_eq_false_iff, decide_eq_false_iff_not]
    omega

/-- The numbers of its characters spell a text. -/
theorem joinHalves?_toNat (t : Text) : joinHalves? (t.map Char.toNat) = some t := by
  induction t with
  | nil => rfl
  | cons c t ih =>
    obtain ⟨hlow, hhigh⟩ := isHalf_toNat c
    rw [List.map_cons, joinHalves?.eq_def]
    simp [hlow, hhigh, ih, Char.ofNat_toNat]

/-! ## White space -/

/-- White space between the parts of a value. -/
def IsGap (t : Text) : Prop := ∀ c ∈ t, isSpace c = true

section

variable {gap : Text}

/-- The start of a line is white space when lines are indented by it. -/
theorem isGap_newLine {indent : Text} (h : IsGap indent) (depth : Nat) : IsGap (newLine indent depth) := by
  intro c hc
  rcases List.mem_cons.1 hc with rfl | hc
  · decide
  · obtain ⟨piece, hpiece, hc⟩ := List.mem_flatten.1 hc
    exact h c (List.eq_of_mem_replicate hpiece ▸ hc)

/-- White space is skipped. -/
theorem skipSpaces_gap (h : IsGap gap) (t : Text) : skipSpaces (gap ++ t) = skipSpaces t := List.dropWhile_append_of_pos h

/-- Nothing is skipped before another character. -/
theorem skipSpaces_cons {c : Char} (h : isSpace c = false) (t : Text) : skipSpaces (c :: t) = c :: t :=
  List.dropWhile_cons_of_neg (by simp [h])

/-- What is skipped is white space. -/
theorem exists_gap (t : Text) : ∃ gap, IsGap gap ∧ t = gap ++ skipSpaces t :=
  ⟨t.takeWhile isSpace, fun _ hc => List.mem_takeWhile_imp hc, List.takeWhile_append_dropWhile.symm⟩

/-- White space before a value is not looked at. -/
theorem readValue?_gap (h : IsGap gap) (fuel : Nat) (t : Text) : readValue? fuel (gap ++ t) = readValue? fuel t := by
  cases fuel with
  | zero => rfl
  | succ fuel => rw [readValue?, readValue?, skipSpaces_gap h]

/-- White space before items is not looked at. -/
theorem readItems?_gap (h : IsGap gap) (fuel : Nat) (t : Text) : readItems? fuel (gap ++ t) = readItems? fuel t := by
  cases fuel with
  | zero => rfl
  | succ fuel => rw [readItems?, readItems?, readValue?_gap h]

/-- White space before members is not looked at. -/
theorem readMembers?_gap (h : IsGap gap) (fuel : Nat) (t : Text) : readMembers? fuel (gap ++ t) = readMembers? fuel t := by
  cases fuel with
  | zero => rfl
  | succ fuel => rw [readMembers?, readMembers?, skipSpaces_gap h]

end

/-! ## Brackets -/

section

variable {fuel : Nat} {t rest : Text}

/-- No item starts with the closing bracket. -/
theorem readItems?_closing (fuel : Nat) (t : Text) : readItems? fuel (']' :: t) = none := by
  rcases fuel with _ | _ | fuel
  · rfl
  · rfl
  · have hplain : readPlain? (']' :: t) = none := rfl
    rw [readItems?, readValue?, skipSpaces_cons (by decide)]
    simp [hplain]

/-- No member starts with the closing bracket. -/
theorem readMembers?_closing (fuel : Nat) (t : Text) : readMembers? fuel ('\x7d' :: t) = none := by
  cases fuel with
  | zero => rfl
  | succ fuel =>
    rw [readMembers?, skipSpaces_cons (by decide)]
    rfl

/-- An array is read when its items are. -/
theorem readValue?_array {items : List JsonValue} (h : readItems? fuel t = some (items, rest)) :
    readValue? (fuel + 1) ('[' :: t) = some (.array items, rest) := by
  obtain ⟨gap, hgap, ht⟩ := exists_gap t
  rw [ht, readItems?_gap hgap] at h
  rw [readValue?, skipSpaces_cons (by decide)]
  simp only []
  split
  · rename_i hclosed
    rw [hclosed, readItems?_closing] at h
    cases h
  · rw [h, Option.map_some]

/-- Members with names that can be read are those of an object. -/
theorem ofMembers_readable (members : List (Text × JsonValue)) :
    ofMembers (members.map fun m => (some m.1, m.2)) = .object members := by
  have hall : (members.map fun m => (some m.1, m.2)).mapM (fun m : Option Text × JsonValue => m.1.map fun name => (name, m.2)) =
      some members := by
    induction members with
    | nil => rfl
    | cons m members ih => simp [List.mapM_cons, ih]
  simp [ofMembers, hall]

/-- An object is read when its members are. -/
theorem readValue?_object {members : List (Text × JsonValue)}
    (h : readMembers? fuel t = some (members.map fun m => (some m.1, m.2), rest)) :
    readValue? (fuel + 1) ('\x7b' :: t) = some (.object members, rest) := by
  obtain ⟨gap, hgap, ht⟩ := exists_gap t
  rw [ht, readMembers?_gap hgap] at h
  rw [readValue?, skipSpaces_cons (by decide)]
  simp only []
  split
  · rename_i hclosed
    rw [hclosed, readMembers?_closing] at h
    cases h
  · rw [h, Option.map_some, ofMembers_readable]

end

/-! ## Parts of a value -/

/-- A value that is made of texts. -/
inductive HoldsTexts : JsonValue → Prop
  | string (t : Text) : HoldsTexts (.string t)
  | array {items : List JsonValue} : (∀ item ∈ items, HoldsTexts item) → HoldsTexts (.array items)
  | object {members : List (Text × JsonValue)} : (∀ m ∈ members, HoldsTexts m.2) → HoldsTexts (.object members)

/-- A value is read back inside any brackets, whatever comes after it. There is fuel for each of its characters. -/
def ReadsBack (indent : Text) (v : JsonValue) : Prop :=
  ∀ depth rest fuel, (v.pretty indent depth).length ≤ fuel → readValue? fuel (v.pretty indent depth ++ rest) = some (v, rest)

/-- A member of an object as it is written. -/
def prettyMember (indent : Text) (depth : Nat) (m : Text × JsonValue) : Text :=
  writtenString m.1 ++ ": " ++ m.2.pretty indent depth

/-- Items are written one by one. -/
theorem prettyItems_eq_map (indent : Text) (depth : Nat) (items : List JsonValue) :
    prettyItems indent depth items = items.map (pretty indent depth) := by
  induction items with
  | nil => rfl
  | cons item rest ih => rw [prettyItems, ih, List.map_cons]

/-- Members are written one by one. -/
theorem prettyMembers_eq_map (indent : Text) (depth : Nat) (members : List (Text × JsonValue)) :
    prettyMembers indent depth members = members.map (prettyMember indent depth) := by
  induction members with
  | nil => rfl
  | cons m rest ih =>
    rw [prettyMembers.eq_2, ih, List.map_cons]
    rfl

section

variable {indent gap after t rest : Text} {depth fuel : Nat}

/-- The last item of an array is read. -/
theorem readItems?_last (hafter : IsGap after) {item : JsonValue} (h : ReadsBack indent item) (rest : Text)
    (hfuel : (item.pretty indent depth).length ≤ fuel) :
    readItems? (fuel + 1) (item.pretty indent depth ++ (after ++ ']' :: rest)) = some ([item], rest) := by
  rw [readItems?, h depth _ fuel hfuel]
  simp only [skipSpaces_gap hafter, skipSpaces_cons (by decide : isSpace ']' = false)]

/-- An item before others is read, and the others after it. -/
theorem readItems?_cons (hgap : IsGap gap) {item : JsonValue} (h : ReadsBack indent item) {items : List JsonValue}
    (hfuel : (item.pretty indent depth).length ≤ fuel) (ht : readItems? fuel t = some (items, rest)) :
    readItems? (fuel + 1) (item.pretty indent depth ++ ',' :: (gap ++ t)) = some (item :: items, rest) := by
  rw [readItems?, h depth _ fuel hfuel]
  simp only [skipSpaces_cons (by decide : isSpace ',' = false), readItems?_gap hgap, ht, Option.map_some]

/-- The items of an array are read back. -/
theorem readItems?_written (hgap : IsGap gap) (hafter : IsGap after) {items : List JsonValue} (hne : items ≠ [])
    (h : ∀ item ∈ items, ReadsBack indent item) (rest : Text)
    (hfuel : (Text.joinWith (',' :: gap) (items.map (pretty indent depth))).length < fuel) :
    readItems? fuel (Text.joinWith (',' :: gap) (items.map (pretty indent depth)) ++ (after ++ ']' :: rest)) =
      some (items, rest) := by
  induction items generalizing fuel with
  | nil => exact absurd rfl hne
  | cons item items ih =>
    obtain ⟨hitem, hitems⟩ := List.forall_mem_cons.1 h
    obtain ⟨fuel, rfl⟩ := Nat.exists_eq_add_one.2 (Nat.zero_lt_of_lt hfuel)
    rcases items with _ | ⟨next, more⟩
    · simp only [List.map_cons, List.map_nil, Text.joinWith_singleton] at hfuel ⊢
      exact readItems?_last hafter hitem rest (Nat.le_of_lt_succ hfuel)
    · simp only [List.map_cons, Text.joinWith_cons_cons, List.length_append, List.length_cons] at hfuel ih ⊢
      rw [List.append_assoc, List.append_assoc, List.cons_append]
      exact readItems?_cons hgap hitem (by omega) (ih (by simp) hitems (by omega))

/-- A member starts with its name, after which its value is read. -/
theorem exists_of_prettyMember {m : Text × JsonValue} (h : ReadsBack indent m.2) (t : Text)
    (hfuel : (prettyMember indent depth m).length ≤ fuel) :
    ∃ name value, prettyMember indent depth m ++ t = '"' :: name ∧ readUnits? name = some (m.1.map Char.toNat, ':' :: value) ∧
      readValue? fuel value = some (m.2, t) := by
  have hspace : IsGap [' '] := fun c hc => by rw [List.mem_singleton.1 hc]; rfl
  have hlength : (m.2.pretty indent depth).length ≤ fuel := by
    rw [prettyMember, List.length_append] at hfuel
    omega
  have htext : prettyMember indent depth m ++ t =
      '"' :: (m.1.flatMap writtenChar ++ '"' :: (':' :: ([' '] ++ (m.2.pretty indent depth ++ t)))) := by
    simp [prettyMember, writtenString]
  refine ⟨_, _, htext, readUnits?_written m.1 _, ?_⟩
  rw [readValue?_gap hspace, h depth t fuel hlength]

/-- The last member of an object is read. -/
theorem readMembers?_last (hafter : IsGap after) {m : Text × JsonValue} (h : ReadsBack indent m.2) (rest : Text)
    (hfuel : (prettyMember indent depth m).length ≤ fuel) :
    readMembers? (fuel + 1) (prettyMember indent depth m ++ (after ++ '\x7d' :: rest)) = some ([(some m.1, m.2)], rest) := by
  obtain ⟨name, value, htext, hname, hvalue⟩ := exists_of_prettyMember h (after ++ '\x7d' :: rest) hfuel
  rw [htext, readMembers?, skipSpaces_cons (by decide)]
  simp only [hname, skipSpaces_cons (by decide : isSpace ':' = false), hvalue, joinHalves?_toNat, skipSpaces_gap hafter,
    skipSpaces_cons (by decide : isSpace '\x7d' = false)]

/-- A member before others is read, and the others after it. -/
theorem readMembers?_cons (hgap : IsGap gap) {m : Text × JsonValue} (h : ReadsBack indent m.2)
    {members : List (Option Text × JsonValue)} (hfuel : (prettyMember indent depth m).length ≤ fuel)
    (ht : readMembers? fuel t = some (members, rest)) :
    readMembers? (fuel + 1) (prettyMember indent depth m ++ ',' :: (gap ++ t)) = some ((some m.1, m.2) :: members, rest) := by
  obtain ⟨name, value, htext, hname, hvalue⟩ := exists_of_prettyMember h (',' :: (gap ++ t)) hfuel
  rw [htext, readMembers?, skipSpaces_cons (by decide)]
  simp only [hname, skipSpaces_cons (by decide : isSpace ':' = false), hvalue, joinHalves?_toNat,
    skipSpaces_cons (by decide : isSpace ',' = false), readMembers?_gap hgap, ht, Option.map_some]

/-- The members of an object are read back. -/
theorem readMembers?_written (hgap : IsGap gap) (hafter : IsGap after) {members : List (Text × JsonValue)} (hne : members ≠ [])
    (h : ∀ m ∈ members, ReadsBack indent m.2) (rest : Text)
    (hfuel : (Text.joinWith (',' :: gap) (members.map (prettyMember indent depth))).length < fuel) :
    readMembers? fuel (Text.joinWith (',' :: gap) (members.map (prettyMember indent depth)) ++ (after ++ '\x7d' :: rest)) =
      some (members.map fun m => (some m.1, m.2), rest) := by
  induction members generalizing fuel with
  | nil => exact absurd rfl hne
  | cons m members ih =>
    obtain ⟨hvalue, hmembers⟩ := List.forall_mem_cons.1 h
    obtain ⟨fuel, rfl⟩ := Nat.exists_eq_add_one.2 (Nat.zero_lt_of_lt hfuel)
    rcases members with _ | ⟨next, more⟩
    · simp only [List.map_cons, List.map_nil, Text.joinWith_singleton] at hfuel ⊢
      exact readMembers?_last hafter hvalue rest (Nat.le_of_lt_succ hfuel)
    · simp only [List.map_cons, Text.joinWith_cons_cons, List.length_append, List.length_cons] at hfuel ih ⊢
      rw [List.append_assoc, List.append_assoc, List.cons_append]
      exact readMembers?_cons hgap hvalue (by omega) (ih (by simp) hmembers (by omega))

end

/-! ## Values -/

section

variable {indent : Text}

/-- Parts inside brackets, with what comes after them. -/
theorem bracketed_append (opening closing : Char) (indent : Text) (depth : Nat) {parts : List Text} (h : parts ≠ []) (rest : Text) :
    bracketed [opening] [closing] indent depth parts ++ rest =
      opening :: (newLine indent (depth + 1) ++ (Text.joinWith (',' :: newLine indent (depth + 1)) parts ++
        (newLine indent depth ++ closing :: rest))) := by
  simp [bracketed, h]

/-- Both brackets come to what is inside them. -/
theorem length_bracketed (opening closing : Char) (indent : Text) (depth : Nat) (parts : List Text) :
    (Text.joinWith (',' :: newLine indent (depth + 1)) parts).length + 2 ≤
      (bracketed [opening] [closing] indent depth parts).length := by
  by_cases h : parts = []
  · subst h
    exact Nat.le_refl 2
  · rw [← List.append_nil (bracketed _ _ _ _ _), bracketed_append opening closing indent depth h]
    simp only [List.length_cons, List.length_append]
    omega

/-- A string is read back. -/
theorem readsBack_string (indent t : Text) : ReadsBack indent (.string t) := by
  intro depth rest fuel hfuel
  cases fuel with
  | zero => cases hfuel
  | succ fuel =>
    have htext : writtenString t ++ rest = '"' :: (t.flatMap writtenChar ++ '"' :: rest) := by simp [writtenString]
    rw [pretty, htext, readValue?, skipSpaces_cons (by decide)]
    simp only [readUnits?_written, Option.map_some, joinHalves?_toNat, Option.getD_some]

/-- An array is read back when its items are. -/
theorem readsBack_array (hindent : IsGap indent) {items : List JsonValue} (h : ∀ item ∈ items, ReadsBack indent item) :
    ReadsBack indent (.array items) := by
  intro depth rest fuel hfuel
  have hpretty : (array items).pretty indent depth = bracketed ['['] [']'] indent depth (items.map (pretty indent (depth + 1))) := by
    rw [pretty, prettyItems_eq_map]
    rfl
  rw [hpretty] at hfuel ⊢
  have hlength := length_bracketed '[' ']' indent depth (items.map (pretty indent (depth + 1)))
  have hgap := isGap_newLine hindent (depth + 1)
  obtain ⟨fuel, rfl⟩ := Nat.exists_eq_add_one.2 (Nat.lt_of_lt_of_le (Nat.zero_lt_of_lt hlength) hfuel)
  by_cases hne : items = []
  · subst hne
    rfl
  · rw [bracketed_append '[' ']' indent depth (by simpa using hne)]
    refine readValue?_array ?_
    rw [readItems?_gap hgap]
    exact readItems?_written hgap (isGap_newLine hindent depth) hne h rest (by omega)

/-- An object is read back when the values of its members are. -/
theorem readsBack_object (hindent : IsGap indent) {members : List (Text × JsonValue)} (h : ∀ m ∈ members, ReadsBack indent m.2) :
    ReadsBack indent (.object members) := by
  intro depth rest fuel hfuel
  have hpretty : (object members).pretty indent depth =
      bracketed ['\x7b'] ['\x7d'] indent depth (members.map (prettyMember indent (depth + 1))) := by
    rw [pretty, prettyMembers_eq_map]
    rfl
  rw [hpretty] at hfuel ⊢
  have hlength := length_bracketed '\x7b' '\x7d' indent depth (members.map (prettyMember indent (depth + 1)))
  have hgap := isGap_newLine hindent (depth + 1)
  obtain ⟨fuel, rfl⟩ := Nat.exists_eq_add_one.2 (Nat.lt_of_lt_of_le (Nat.zero_lt_of_lt hlength) hfuel)
  by_cases hne : members = []
  · subst hne
    rfl
  · rw [bracketed_append '\x7b' '\x7d' indent depth (by simpa using hne)]
    refine readValue?_object ?_
    rw [readMembers?_gap hgap]
    exact readMembers?_written hgap (isGap_newLine hindent depth) hne h rest (by omega)

/-- A value of texts is read back. -/
theorem HoldsTexts.readsBack {v : JsonValue} (h : v.HoldsTexts) (hindent : IsGap indent) : ReadsBack indent v := by
  induction h with
  | string t => exact readsBack_string indent t
  | array _ ih => exact readsBack_array hindent ih
  | object _ ih => exact readsBack_object hindent ih

/-- A text that is a value of texts, written over several lines, is read as that value. -/
theorem parse?_pretty (hindent : IsGap indent) {v : JsonValue} (h : v.HoldsTexts) : parse? (v.pretty indent 0) = some v := by
  have hread := h.readsBack hindent 0 [] (2 * (v.pretty indent 0).length + 1) (by omega)
  rw [List.append_nil] at hread
  rw [parse?, hread]
  rfl

end

end JsonValue

end LocalePages
