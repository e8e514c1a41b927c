import LocalePages.Glob.Expand
import LocalePages.Proofs.Paths

/-!
# Plain texts as patterns

A text without wildcards is a pattern that stands for itself (`GlobPattern.parse_of_isPlain`), and a pattern that stands for one
text only is that text (`GlobPattern.eq_of_literal?`). Before another pattern a plain text takes no part in how this one is read:
whether a pattern after it can be read does not depend on the plain text (`GlobPattern.isOk_parse_append`).
-/

namespace LocalePages

namespace GlobPattern

/-- Whether a text holds no wildcards. -/
def IsPlain (t : Text) : Prop := ∀ c ∈ t, c ≠ '?' ∧ c ≠ '[' ∧ c ≠ '*'

instance (t : Text) : Decidable (IsPlain t) := inferInstanceAs (Decidable (∀ c ∈ t, c ≠ '?' ∧ c ≠ '[' ∧ c ≠ '*'))

/-- The pattern that stands for a text. -/
def ofText (t : Text) : GlobPattern := ⟨t.map .char⟩

/-! ## Reading -/

/-- A plain character stands for itself. -/
theorem readFrom_cons {c : Char} (h : c ≠ '?' ∧ c ≠ '[' ∧ c ≠ '*') (fuel position : Nat) (before : Option Char) (t : Text) :
    readFrom (fuel + 1) position before (c :: t) = (readFrom fuel (position + 1) (some c) t).map (.char c :: ·) := by
  simp only [readFrom, if_neg h.1, if_neg h.2.1, if_neg h.2.2]

/-- Plain characters stand for themselves, and what comes after them is read as it is after the last of them. -/
theorem readFrom_append {start : Text} (h : IsPlain start) (fuel position : Nat) (before : Option Char) (t : Text) :
    readFrom (start.length + fuel) position before (start ++ t) =
      (readFrom fuel (position + start.length) (start.getLast?.or before) t).map (start.map .char ++ ·) := by
  induction start generalizing position before with
  | nil =>
    rw [List.length_nil, Nat.zero_add]
    exact (congrFun Except.map_id _).symm
  | cons c start ih =>
    obtain ⟨hc, hstart⟩ := List.forall_mem_cons.1 h
    have hlast : (c :: start).getLast?.or before = start.getLast?.or (some c) := by
      rw [List.getLast?_cons]
      cases start.getLast? <;> rfl
    rw [List.length_cons, Nat.succ_add, List.cons_append, readFrom_cons hc, ih hstart, hlast, Nat.add_right_comm, Nat.add_assoc]
    cases readFrom fuel (position + (start.length + 1)) (start.getLast?.or (some c)) t <;> rfl

/-- A plain text stands for itself. -/
theorem parse_of_isPlain {t : Text} (h : IsPlain t) : parse t = .ok (ofText t) := by
  have hread := readFrom_append h 0 0 none []
  rw [List.append_nil, Nat.add_zero, readFrom] at hread
  rw [parse, hread]
  exact congrArg (fun tokens => Except.ok (GlobPattern.mk tokens)) (List.append_nil _)

/-- Whether a text can be read as a pattern does not depend on where it starts. -/
theorem isOk_readFrom (fuel position position' : Nat) (before : Option Char) (t : Text) :
    (readFrom fuel position before t).isOk = (readFrom fuel position' before t).isOk := by
  have hmap : ∀ {f : List GlobToken → List GlobToken} {x : Except GlobError (List GlobToken)}, (x.map f).isOk = x.isOk := by
    intro f x
    cases x <;> rfl
  induction fuel generalizing position position' before t with
  | zero => rfl
  | succ fuel ih =>
    cases t with
    | nil => rfl
    | cons c t =>
      simp only [readFrom]
      split
      · rw [hmap, hmap]
        exact ih _ _ _ _
      · split
        · split
          · rfl
          · rw [hmap, hmap]
            exact ih _ _ _ _
        · split
          · split
            · rfl
            · split
              · rfl
              · split
                · rfl
                · rw [hmap, hmap]
                  exact ih _ _ _ _
                · rfl
            · rw [hmap, hmap]
              exact ih _ _ _ _
          · rw [hmap, hmap]
            exact ih _ _ _ _

/-- Whether a pattern can be read after plain texts does not depend on these, as long as they end alike. -/
theorem isOk_parse_append {start start' : Text} (h : IsPlain start) (h' : IsPlain start') (hlast : start.getLast? = start'.getLast?)
    (t : Text) : (parse (start ++ t)).isOk = (parse (start' ++ t)).isOk := by
  have hparse : ∀ {start : Text}, IsPlain start →
      (parse (start ++ t)).isOk = (readFrom t.length 0 (start.getLast?.or none) t).isOk := by
    intro start h
    rw [isOk_readFrom t.length 0 (0 + start.length), parse, List.length_append, readFrom_append h]
    cases readFrom t.length (0 + start.length) (start.getLast?.or none) t <;> rfl
  rw [hparse h, hparse h', hlast]

/-! ## Patterns that stand for one text -/

/-- A pattern that starts with a character stands for one text when what comes after does. -/
theorem literal?_char_cons (c : Char) (tokens : List GlobToken) :
    literal? ⟨.char c :: tokens⟩ = (literal? ⟨tokens⟩).map (c :: ·) := by
  cases hrest : literal? ⟨tokens⟩ <;> rw [literal?] at hrest <;> simp [literal?, hrest]

/-- A pattern that starts with a wildcard stands for no single text. -/
theorem literal?_cons_of_ne {token : GlobToken} (h : ∀ c, token ≠ .char c) (tokens : List GlobToken) :
    literal? ⟨token :: tokens⟩ = none := by
  cases token with
  | char c => exact absurd rfl (h c)
  | _ => rfl

/-- A pattern stands for one text when it holds nothing but the characters of the text. -/
theorem literal?_eq_some_iff {p : GlobPattern} {name : Text} : p.literal? = some name ↔ p = ofText name := by
  obtain ⟨tokens⟩ := p
  induction tokens generalizing name with
  | nil =>
    constructor
    · intro h
      cases h
      rfl
    · intro h
      cases name with
      | nil => rfl
      | cons c name => cases h
  | cons token tokens ih =>
    constructor
    · intro h
      by_cases hchar : ∃ c, token = .char c
      · obtain ⟨c, rfl⟩ := hchar
        rw [literal?_char_cons] at h
        obtain ⟨rest, hrest, rfl⟩ := Option.map_eq_some_iff.1 h
        cases ih.1 hrest
        rfl
      · rw [literal?_cons_of_ne (not_exists.1 hchar)] at h
        cases h
    · intro h
      cases name with
      | nil => cases h
      | cons c name =>
        cases h
        rw [literal?_char_cons, ih.2 rfl]
        rfl

/-- Reading that starts with a token gives the characters of a text when the token is the first of them and the rest gives the others. -/
theorem exists_of_map_cons {token : GlobToken} {rest : Except GlobError (List GlobToken)} {name : Text}
    (h : rest.map (token :: ·) = .ok (name.map .char)) : ∃ c t, name = c :: t ∧ token = .char c ∧ rest = .ok (t.map .char) := by
  cases rest with
  | error e => cases h
  | ok tokens =>
    cases name with
    | nil => cases h
    | cons c t =>
      cases h
      exact ⟨c, t, rfl, rfl, rfl⟩

/-- A class is no character. -/
theorem ne_char_of_readClass? {t after : Text} {token : GlobToken} (h : readClass? t = some (token, after)) (c : Char) :
    token ≠ .char c := by
  unfold readClass? at h
  split at h
  · obtain ⟨_, -, hcut⟩ := Option.map_eq_some_iff.1 h
    cases hcut
    exact nofun
  · split at h
    · cases h
    · obtain ⟨_, -, hcut⟩ := Option.map_eq_some_iff.1 h
      cases hcut
      exact nofun
  · cases h

/-- Only a text itself is read as its characters. -/
theorem eq_of_readFrom {fuel position : Nat} {before : Option Char} {t name : Text} (hfuel : t.length ≤ fuel)
    (h : readFrom fuel position before t = .ok (name.map .char)) : name = t := by
  induction fuel generalizing position before t name with
  | zero =>
    cases List.eq_nil_of_length_eq_zero (Nat.le_zero.1 hfuel)
    cases name with
    | nil => rfl
    | cons c name => cases h
  | succ fuel ih =>
    cases t with
    | nil =>
      cases name with
      | nil => rfl
      | cons c name => cases h
    | cons c t =>
      -- every wildcard gives a token that is no character
      have hwildcard : ∀ {token : GlobToken} {x : Except GlobError (List GlobToken)}, (∀ c, token ≠ .char c) →
          x.map (token :: ·) ≠ .ok (name.map .char) := by
        intro token x htoken h
        obtain ⟨c, -, -, hchar, -⟩ := exists_of_map_cons h
        exact htoken c hchar
      simp only [readFrom] at h
      split at h
      · exact absurd h (hwildcard nofun)
      · split at h
        · split at h
          · cases h
          · exact absurd h (hwildcard (ne_char_of_readClass? ‹_›))
        · split at h
          · split at h
            · cases h
            · split at h
              · cases h
              · split at h
                · exact absurd h (hwildcard (x := .ok []) nofun)
                · exact absurd h (hwildcard nofun)
                · cases h
            · exact absurd h (hwildcard nofun)
          · obtain ⟨d, rest, rfl, hchar, hrest⟩ := exists_of_map_cons h
            cases hchar
            rw [ih (Nat.le_of_succ_le_succ hfuel) hrest]

/-- What is read as a pattern for one text is this text. -/
theorem eq_of_literal? {t name : Text} {p : GlobPattern} (h : parse t = .ok p) (hliteral : p.literal? = some name) : name = t := by
  rw [literal?_eq_some_iff] at hliteral
  subst hliteral
  unfold parse at h
  cases hread : readFrom t.length 0 none t with
  | error e =>
    rw [hread] at h
    cases h
  | ok tokens =>
    rw [hread] at h
    cases h
    exact eq_of_readFrom (Nat.le_refl _) hread

end GlobPattern

end LocalePages
