import LocalePages.Proofs.CleanedPaths
import LocalePages.Proofs.Entries
import Mathlib.Algebra.Ring.Nat

/-!
# How long paths are

Paths have a greatest length in bytes. A way takes its names and a slash before each (`Place.size`); a path that goes on with an entry is
longer by the entry and at most a slash (`Path.size_join_le`), and a cleaned path takes a slash and what it says
(`Path.size_cleaned_le`).
-/

namespace LocalePages

namespace Utf8

/-- The bytes of a text are those of its characters. -/
theorem size_eq_sum (t : Text) : size t = (t.map Char.utf8Size).sum := by
  rw [size, List.sum_eq_foldl, List.foldl_map]

/-- The bytes of a text are those of its halves. -/
theorem size_append (t t' : Text) : size (t ++ t') = size t + size t' := by
  rw [size_eq_sum, size_eq_sum, size_eq_sum, List.map_append, List.sum_append]

/-- A part of a text takes no more bytes. -/
theorem size_le_of_sublist {t t' : Text} (h : t.Sublist t') : size t ≤ size t' := by
  rw [size_eq_sum, size_eq_sum]
  induction h with
  | slnil => exact Nat.le_refl _
  | cons c _ ih =>
    rw [List.map_cons, List.sum_cons]
    exact ih.trans (Nat.le_add_left _ _)
  | cons_cons c _ ih =>
    rw [List.map_cons, List.map_cons, List.sum_cons, List.sum_cons]
    exact Nat.add_le_add_left ih _

/-- A slash takes one byte. -/
theorem size_slash_cons (t : Text) : size ('/' :: t) = size t + 1 :=
  (size_append ['/'] t).trans (Nat.add_comm _ _)

end Utf8

namespace Place

/-- How many bytes a way takes in a path: its names and a slash before each. -/
def size (way : Place) : Nat := (way.map fun name => Utf8.size name + 1).sum

theorem size_cons (name : Text) (way : Place) : size (name :: way) = Utf8.size name + 1 + size way := List.sum_cons

theorem size_append (way way' : Place) : size (way ++ way') = size way + size way' := by
  rw [size, size, size, List.map_append, List.sum_append]

/-- Fewer names take no more bytes. -/
theorem size_le_of_sublist {way way' : Place} (h : way.Sublist way') : size way ≤ size way' := by
  induction h with
  | slnil => exact Nat.le_refl _
  | cons name _ ih => exact ih.trans (Nat.le_add_left _ _)
  | cons_cons name _ ih => exact Nat.add_le_add_left ih _

/-- Joined names take the bytes of the way but for the first slash. -/
theorem size_joinWith {way : Place} (h : way ≠ []) : Utf8.size (Text.joinWith "/" way) + 1 = size way := by
  induction way with
  | nil => exact absurd rfl h
  | cons first rest ih =>
    cases rest with
    | nil =>
      rw [Text.joinWith_singleton]
      rfl
    | cons second rest =>
      have hrest := ih (List.cons_ne_nil _ _)
      have hslash : Utf8.size ("/" : Text) = 1 := rfl
      rw [Text.joinWith_cons_cons, Utf8.size_append, Utf8.size_append, size_cons]
      omega

end Place

namespace Path

variable {path : Text}

/-- The pieces of a text take one slash more than the text. -/
theorem size_segments (path : Text) : Place.size (segments path) = Utf8.size path + 1 := by
  have hne : segments path ≠ [] := List.splitOn_ne_nil _ _
  have hjoined : Text.joinWith "/" (segments path) = path := List.intercalate_splitOn '/'
  rw [← Place.size_joinWith hne, hjoined]

/-- The path of an entry is longer by its name and at most one slash. -/
theorem size_join_le (directory : Text) {entry : Text} (h : isAbsolute entry = false) :
    Utf8.size (join directory entry) ≤ Utf8.size directory + 1 + Utf8.size entry := by
  rw [join_eq_lead_append _ h, Utf8.size_append]
  rcases lead_cases directory with ⟨-, hlead⟩ | ⟨start, hlead, rfl | ⟨rfl, -⟩⟩
  · rw [hlead]
    exact Nat.add_le_add_right (Nat.zero_le _) _
  · rw [hlead]
    omega
  · rw [hlead, Utf8.size_append]
    exact Nat.le_refl _

/-- A path from the root is not empty. -/
theorem size_pos (h : isAbsolute path = true) : 0 < Utf8.size path := by
  obtain ⟨rest, rfl⟩ := exists_of_isAbsolute h
  rw [Utf8.size_slash_cons]
  exact Nat.succ_pos _

/-- What a path from the root says takes no more bytes than the path. -/
theorem size_saying_le (h : isAbsolute path = true) : Place.size (saying path) ≤ Utf8.size path := by
  obtain ⟨rest, rfl⟩ := exists_of_isAbsolute h
  have hsaying : saying ('/' :: rest) = saying rest := saying_append_slash [] rest
  rw [hsaying, Utf8.size_slash_cons, ← size_segments]
  exact Place.size_le_of_sublist List.filter_sublist

/-- A cleaned path from the root takes a slash and what it says. -/
theorem size_cleaned_le (h : isAbsolute path = true) : Utf8.size (cleaned path) ≤ Place.size (saying path) + 1 := by
  have hslash : Utf8.size ("/" : Text) = 1 := rfl
  rw [cleaned_eq, if_pos h, Utf8.size_append]
  by_cases hnone : saying path = []
  · rw [hnone]
    exact Nat.le_refl 1
  · have hjoined := Place.size_joinWith hnone
    omega

end Path

namespace Disk

/-- A path that is part of another one has no fault that this one has not. -/
theorem fault?_eq_none_of_sublist {path path' : Text} (h : path.Sublist path') (hnone : fault? path' = none) : fault? path = none := by
  unfold fault? at hnone ⊢
  split at hnone
  · cases hnone
  · rename_i hnul
    split at hnone
    · cases hnone
    · rename_i hlength
      rw [if_neg, if_neg (fun hlong => hlength (hlong.trans_le (Utf8.size_le_of_sublist h)))]
      rw [List.contains_iff_mem] at hnul ⊢
      exact fun hin => hnul (h.subset hin)

end Disk

end LocalePages
