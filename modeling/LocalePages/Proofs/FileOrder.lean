import LocalePages.Disk
import Mathlib.Data.Char
import Mathlib.Data.List.Lex
import Mathlib.Data.List.Sort

/-!
# The order of files

The files of a folder come in one order whatever way they are sorted (`Disk.files_eq_insertionSort`): no two places come before
each other, so that there is one list with all of them in order. Sorted by insertion they can be listed by evaluation.
-/

namespace LocalePages

namespace Disk

/-- The order of places is a linear one. -/
theorem placeLe_iff (p q : Place) : placeLe p q = true ↔ p ≤ q := by
  rw [placeLe, Bool.not_eq_true', decide_eq_false_iff_not, not_lt]

theorem placeLe_trans (p q r : Place) (h : placeLe p q = true) (h' : placeLe q r = true) : placeLe p r = true := by
  rw [placeLe_iff] at h h' ⊢
  exact le_trans h h'

theorem placeLe_total (p q : Place) : (placeLe p q || placeLe q p) = true := by
  simp only [Bool.or_eq_true, placeLe_iff]
  exact le_total p q

/-- The same places in order are the same list. -/
theorem eq_of_perm_of_sorted {ways ways' : List Place} (hperm : ways.Perm ways') (h : ways.Pairwise fun p q => placeLe p q = true)
    (h' : ways'.Pairwise fun p q => placeLe p q = true) : ways = ways' := by
  refine List.Perm.eq_of_pairwise (fun p q _ _ hpq hqp => ?_) h h' hperm
  rw [placeLe_iff] at hpq hqp
  exact le_antisymm hpq hqp

/-- The files of a folder are listed in order. -/
theorem sorted_files (d : Disk) (p : Place) : (d.files p).Pairwise fun p q => placeLe p q = true :=
  List.pairwise_mergeSort placeLe_trans placeLe_total _

/-- Sorting places by merging gives the same as sorting them by insertion. -/
theorem mergeSort_placeLe (ways : List Place) :
    ways.mergeSort placeLe = ways.insertionSort fun p q => placeLe p q = true :=
  eq_of_perm_of_sorted ((List.mergeSort_perm ways placeLe).trans (List.perm_insertionSort _ ways).symm)
    (List.pairwise_mergeSort placeLe_trans placeLe_total ways)
    (@List.pairwise_insertionSort _ _ _ ⟨fun p q => by simpa using placeLe_total p q⟩ ⟨placeLe_trans⟩ ways)

/-- The ways to the files in a folder, sorted by insertion. -/
theorem files_eq_insertionSort : files = fun d p =>
    (d.entries.filterMap fun (q, e) =>
      match p.isPrefixOf? q, e with
      | some (name :: rest), .file _ _ => some (name :: rest)
      | _, _ => none).insertionSort fun p q => placeLe p q = true := by
  funext d p
  exact mergeSort_placeLe _

end Disk

end LocalePages
