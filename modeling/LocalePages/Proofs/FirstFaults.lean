import LocalePages.Catalog.Reader
import LocalePages.Proofs.Lines

/-!
# The first fault of a catalog

A text that is no catalog is refused for the first line that cannot be taken in after the lines before it
(`CatalogProgress.exists_of_readFrom_error`). So the lines before that one are a catalog, and what comes after it makes no difference
(`Catalog.parse_error_first`).
-/

namespace LocalePages

/-- The line that an error is about. -/
def CatalogError.line : CatalogError → Nat
  | .unexpected line _ => line
  | .unterminated line => line

namespace CatalogProgress

variable {p q : CatalogProgress} {number : Nat} {lines : List Text} {e : CatalogError}

/-- An error is about the line where it was found. -/
theorem line_of_readLine {raw : Text} (h : p.readLine (raw, number) = .error e) : e.line = number := by
  unfold readLine at h
  dsimp only at h
  split at h
  · cases h
  · cases h
    rfl
  · cases h
    rfl

/-- Reads lines, the first of which has a number. -/
def readFrom (p : CatalogProgress) (number : Nat) (lines : List Text) : Except CatalogError CatalogProgress :=
  (lines.zipIdx number).foldlM readLine p

theorem readFrom_cons (p : CatalogProgress) (number : Nat) (raw : Text) (lines : List Text) :
    p.readFrom number (raw :: lines) = p.readLine (raw, number) >>= fun q => q.readFrom (number + 1) lines := by
  rw [readFrom, List.zipIdx_cons, List.foldlM_cons]
  rfl

/-- Lines are read one part after the other. -/
theorem readFrom_append (p : CatalogProgress) (number : Nat) (before after : List Text) :
    p.readFrom number (before ++ after) = p.readFrom number before >>= fun q => q.readFrom (number + before.length) after := by
  rw [readFrom, List.zipIdx_append, List.foldlM_append]
  rfl

/-- Lines that can be read can be read up to each of them. -/
theorem exists_readFrom_of_append {before after : List Text} (h : p.readFrom number (before ++ after) = .ok q) :
    ∃ next, p.readFrom number before = .ok next := by
  rw [readFrom_append] at h
  cases hbefore : p.readFrom number before with
  | error e =>
    rw [hbefore] at h
    cases h
  | ok next => exact ⟨next, rfl⟩

/-- Lines that cannot be read have a first one that cannot be taken in: those before it can be read, and the error is about it. -/
theorem exists_of_readFrom_error (h : p.readFrom number lines = .error e) :
    ∃ before raw after q, lines = before ++ raw :: after ∧ p.readFrom number before = .ok q ∧
      q.readLine (raw, number + before.length) = .error e := by
  induction lines generalizing p number with
  | nil => cases h
  | cons raw lines ih =>
    rw [readFrom_cons] at h
    cases hline : p.readLine (raw, number) with
    | error e' =>
      rw [hline] at h
      cases h
      exact ⟨[], raw, lines, p, rfl, rfl, hline⟩
    | ok next =>
      rw [hline] at h
      obtain ⟨before, raw', after, q, rfl, hbefore, hfault⟩ := ih h
      refine ⟨raw :: before, raw', after, q, rfl, ?_, ?_⟩
      · rw [readFrom_cons, hline]
        exact hbefore
      · rw [List.length_cons, Nat.add_comm before.length 1, ← Nat.add_assoc]
        exact hfault

/-- Lines that cannot be taken in after others are at fault whatever comes after them. -/
theorem readFrom_of_readLine_error {before : List Text} {raw : Text} (hbefore : p.readFrom number before = .ok q)
    (hfault : q.readLine (raw, number + before.length) = .error e) (after : List Text) :
    p.readFrom number (before ++ raw :: after) = .error e := by
  have hafter : q.readFrom (number + before.length) (raw :: after) = .error e := by
    rw [readFrom_cons, hfault]
    rfl
  rw [readFrom_append, hbefore]
  exact hafter

end CatalogProgress

namespace Catalog

variable {t : Text} {e : CatalogError}

/-- A catalog is what its lines say, one after the other. -/
theorem parse_eq (t : Text) : parse t = (CatalogProgress.start.readFrom 1 t.lines).map fun p => ⟨p.finish.messages⟩ := by
  unfold parse CatalogProgress.readFrom
  cases (t.lines.zipIdx 1).foldlM CatalogProgress.readLine .start <;> rfl

/-- A text is a catalog when its lines can be read. -/
theorem exists_parse_iff : (∃ c, parse t = .ok c) ↔ ∃ p, CatalogProgress.start.readFrom 1 t.lines = .ok p := by
  rw [parse_eq]
  cases CatalogProgress.start.readFrom 1 t.lines with
  | error e => exact ⟨nofun, nofun⟩
  | ok p => exact ⟨fun _ => ⟨p, rfl⟩, fun _ => ⟨_, rfl⟩⟩

/-- A text is no catalog when its lines cannot be read, and for the same reason. -/
theorem parse_eq_error_iff : parse t = .error e ↔ CatalogProgress.start.readFrom 1 t.lines = .error e := by
  rw [parse_eq]
  cases CatalogProgress.start.readFrom 1 t.lines with
  | error e' => simp only [Except.map, Except.error.injEq]
  | ok p => exact ⟨nofun, nofun⟩

/-- A text is a catalog exactly when all its starts up to the end of a line are. -/
theorem exists_parse_iff_firstLines : (∃ c, parse t = .ok c) ↔ ∀ n, ∃ c, parse (t.firstLines n) = .ok c := by
  constructor
  · intro h n
    obtain ⟨p, hp⟩ := exists_parse_iff.1 h
    rw [← List.take_append_drop n t.lines] at hp
    rw [exists_parse_iff, Text.lines_firstLines]
    exact CatalogProgress.exists_readFrom_of_append hp
  · intro h
    have hall := exists_parse_iff.1 (h t.lines.length)
    rw [Text.lines_firstLines, List.take_length] at hall
    exact exists_parse_iff.2 hall

/-- A text that is no catalog is refused for one of its lines: what comes before the line is a catalog, and every text that has the same
lines up to it is refused for the same reason. So a text is a catalog exactly when all its starts up to the end of a line are. -/
theorem parse_error_first (t : Text) :
    (∀ e, parse t = .error e →
      1 ≤ e.line ∧ e.line ≤ t.lines.length ∧ (∃ c, parse (t.firstLines (e.line - 1)) = .ok c) ∧
        ∀ t' : Text, t'.lines.take e.line = t.lines.take e.line → parse t' = .error e) ∧
    ((∃ c, parse t = .ok c) ↔ ∀ n, ∃ c, parse (t.firstLines n) = .ok c) := by
  refine ⟨fun e h => ?_, exists_parse_iff_firstLines⟩
  obtain ⟨before, raw, after, q, hlines, hbefore, hfault⟩ := CatalogProgress.exists_of_readFrom_error (parse_eq_error_iff.1 h)
  have hline : e.line = before.length + 1 := (CatalogProgress.line_of_readLine hfault).trans (Nat.add_comm 1 _)
  have hlength : t.lines.length = before.length + (after.length + 1) := by rw [hlines, List.length_append, List.length_cons]
  refine ⟨by omega, by omega, ?_, fun t' hsame => ?_⟩
  · rw [exists_parse_iff, Text.lines_firstLines, hline, hlines, Nat.add_sub_cancel, List.take_left]
    exact ⟨q, hbefore⟩
  · -- the other text has the same lines up to the one that is at fault
    have htake : t'.lines.take (before.length + 1) = before ++ [raw] := by
      rw [← hline, hsame, hline, hlines, List.take_length_add_append]
      rfl
    have hlines' : t'.lines = before ++ raw :: t'.lines.drop (before.length + 1) := by
      rw [← List.take_append_drop (before.length + 1) t'.lines, htake]
      simp
    rw [parse_eq_error_iff, hlines']
    exact CatalogProgress.readFrom_of_readLine_error hbefore hfault _

/-- The second line of this text names no field. It is refused for that, and so is a text that goes on in another way after it. -/
theorem parse_error_first_keyword :
    let t : Text := "#~ msgid \"a\"\r\n#~ msgfoo \"b\"\r\n\"open\n"
    let e : CatalogError := .unexpected 2 "#~ msgfoo \"b\""
    parse t = .error e ∧ 1 ≤ e.line ∧ e.line ≤ t.lines.length ∧ t.firstLines (e.line - 1) = "#~ msgid \"a\"\r\n" ∧
      (∃ c, parse (t.firstLines (e.line - 1)) = .ok c) ∧
      parse "#~ msgid \"a\"\n#~ msgfoo \"b\"\nmsgstr \"A\"\n" = .error e := by
  intro t e
  have herror : parse t = .error e := by decide +kernel
  obtain ⟨hfirst, hlast, hbefore, hsame⟩ := (parse_error_first t).1 e herror
  exact ⟨herror, hfirst, hlast, by decide +kernel, hbefore, hsame _ (by decide +kernel)⟩

end Catalog

end LocalePages
