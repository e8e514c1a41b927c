import LocalePages.Text.Basic
import Mathlib.Data.List.Basic

/-!
# The lines of texts

A text that starts with the end of a line has that line first (`Text.lines_append`), and a text without line ends is its only line.
So the start of a text up to the end of one of its lines has the lines up to there (`Text.lines_firstLines`).
-/

namespace LocalePages

namespace Text

/-- A line that has an end is the first line of a text. -/
theorem lines_append {raw : Text} (t : Text) (h : '\n' ∉ raw) : lines (raw ++ '\n' :: t) = chomp raw :: lines t := by
  obtain ⟨piece, pieces, hpieces⟩ := List.exists_cons_of_ne_nil (List.splitOn_ne_nil '\n' t)
  simp only [lines, List.splitOn_append_cons_self_of_not_mem h, hpieces]
  rfl

/-- A text without line ends is its only line. -/
theorem lines_of_last {raw : Text} (hne : raw ≠ []) (h : '\n' ∉ raw) : lines raw = [raw] := by
  simp [lines, List.splitOn_eq_singleton h, hne]

/-- The start of a text up to the end of its line of a number. -/
def firstLines : Nat → Text → Text
  | 0, _ => []
  | _ + 1, [] => []
  | n + 1, c :: t => c :: firstLines (if c = '\n' then n else n + 1) t

/-- Up to the end of the first line a text is copied as it is. -/
theorem firstLines_append (n : Nat) {raw : Text} (t : Text) (h : '\n' ∉ raw) :
    firstLines (n + 1) (raw ++ '\n' :: t) = raw ++ '\n' :: firstLines n t := by
  induction raw with
  | nil => rfl
  | cons c raw ih =>
    rw [List.mem_cons, not_or] at h
    rw [List.cons_append, firstLines, if_neg (Ne.symm h.1), ih h.2, List.cons_append]

/-- The last line of a text is copied whole. -/
theorem firstLines_of_last (n : Nat) {raw : Text} (h : '\n' ∉ raw) : firstLines (n + 1) raw = raw := by
  induction raw with
  | nil => rfl
  | cons c raw ih =>
    rw [List.mem_cons, not_or] at h
    rw [firstLines, if_neg (Ne.symm h.1), ih h.2]

/-- The start of a text up to the end of a line has the lines up to that line. -/
theorem lines_firstLines (n : Nat) (t : Text) : lines (firstLines n t) = (lines t).take n := by
  induction n generalizing t with
  | zero =>
    rw [firstLines, List.take_zero]
    rfl
  | succ n ih =>
    by_cases hend : '\n' ∈ t
    · obtain ⟨raw, rest, rfl, hraw⟩ := List.eq_append_cons_of_mem hend
      rw [firstLines_append n rest hraw, lines_append _ hraw, lines_append _ hraw, ih, List.take_succ_cons]
    · rw [firstLines_of_last n hend]
      by_cases hne : t = []
      · rw [hne]
        rfl
      · rw [lines_of_last hne hend, List.take_succ_cons, List.take_nil]

end Text

end LocalePages
