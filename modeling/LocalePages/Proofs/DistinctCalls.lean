import LocalePages.Proofs.FirstOccurrences
import LocalePages.Proofs.SheetReading

/-!
# Calls that are asked for more than once

A call sheet leaves a call out when one is there that is written alike. What is written of a call determines it, comment and all
(`SheetCall.eq_of_written`), so that nothing but a repetition is left out, and a sheet has the calls that were asked for in order of
first occurrence (`CallSheet.calls_ofEmits`).
-/

namespace LocalePages

/-- Calls that are written alike are the same. No comment has more than one line. -/
theorem SheetCall.eq_of_written {c d : SheetCall} (hc : '\n' ∉ c.comment) (hd : '\n' ∉ d.comment) (h : c.written = d.written) :
    c = d := by
  obtain ⟨hdomain, hcanonical⟩ := written_inj hc hd h
  have hcut := cutAt?_written hc
  rw [h, cutAt?_written hd, Option.some.injEq, Prod.mk.injEq] at hcut
  have hcomment : d.comment = c.comment := List.append_cancel_left hcut.1
  cases c
  cases d
  simp_all

namespace CallSheet

/-- The calls that are asked for, one for each text that is not empty. Their comments are canonical. -/
def asked (emits : List (Option Text × Text × Text)) : List SheetCall :=
  (emits.filter fun e => !e.2.1.isEmpty).map fun e => ⟨e.1, e.2.1, Text.canonical e.2.2⟩

/-- No comment of a call that is asked for has more than one line. -/
theorem newline_notMem_of_mem_asked {emits : List (Option Text × Text × Text)} {c : SheetCall} (h : c ∈ asked emits) :
    '\n' ∉ c.comment := by
  obtain ⟨e, -, rfl⟩ := List.mem_map.1 h
  exact newline_not_mem_canonical e.2.2

/-- A call that is added goes to the end, unless its text is empty or the same call is there. -/
theorem calls_emit {s : CallSheet} (h : s.Tidy) (domain : Option Text) (canonical comment : Text) :
    (s.emit domain canonical comment).calls =
      if canonical = [] ∨ ⟨domain, canonical, Text.canonical comment⟩ ∈ s.calls then s.calls
      else s.calls ++ [⟨domain, canonical, Text.canonical comment⟩] := by
  have hthere : (s.calls.any fun c => c.written == (SheetCall.mk domain canonical (Text.canonical comment)).written) = true ↔
      ⟨domain, canonical, Text.canonical comment⟩ ∈ s.calls := by
    rw [List.any_eq_true]
    constructor
    · rintro ⟨c, hc, hwritten⟩
      rw [← SheetCall.eq_of_written (h c hc) (newline_not_mem_canonical comment) (eq_of_beq hwritten)]
      exact hc
    · intro hc
      exact ⟨_, hc, beq_self_eq_true _⟩
  unfold emit
  simp only [Bool.or_eq_true, List.isEmpty_iff, hthere]
  split <;> rfl

/-- One more call is asked for when its text is not empty. -/
theorem asked_concat (emits : List (Option Text × Text × Text)) (e : Option Text × Text × Text) :
    asked (emits ++ [e]) = if e.2.1 = [] then asked emits else asked emits ++ [⟨e.1, e.2.1, Text.canonical e.2.2⟩] := by
  rw [asked, List.filter_append, List.map_append]
  split
  · rename_i hempty
    simp [asked, hempty]
  · rename_i hne
    simp [asked, hne]

/-- What a sheet has after a run of calls that were asked for. Its comments have one line each. -/
theorem tidy_and_calls_ofEmits (emits : List (Option Text × Text × Text)) :
    (ofEmits emits).Tidy ∧ (ofEmits emits).calls = (asked emits).eraseDups := by
  induction emits using List.reverseRecOn with
  | nil => exact ⟨fun c hc => absurd hc List.not_mem_nil, rfl⟩
  | append_singleton emits e ih =>
    obtain ⟨htidy, hcalls⟩ := ih
    have hstep : ofEmits (emits ++ [e]) = (ofEmits emits).emit e.1 e.2.1 e.2.2 := List.foldl_concat _ _ _ _
    rw [hstep]
    refine ⟨tidy_emit htidy e.1 e.2.1 e.2.2, ?_⟩
    rw [calls_emit htidy, asked_concat]
    by_cases hempty : e.2.1 = []
    · rw [if_pos (Or.inl hempty), if_pos hempty, hcalls]
    · rw [if_neg hempty, eraseDups_concat, hcalls]
      simp only [hempty, false_or, List.mem_eraseDups]

/-- A sheet has the calls that were asked for, in order of first occurrence, and two of them are written alike exactly when they are
the same; so it is after each call that was asked for, and the source is these calls as they are written. -/
theorem calls_ofEmits (emits : List (Option Text × Text × Text)) :
    (ofEmits emits).calls = (asked emits).eraseDups ∧
      (∀ c ∈ asked emits, ∀ d ∈ asked emits, c.written = d.written ↔ c = d) ∧
      (∀ n, (ofEmits (emits.take n)).size = (asked (emits.take n)).eraseDups.length) ∧
      (ofEmits emits).source = "<?php\n" ++ (asked emits).eraseDups.flatMap SheetCall.written := by
  refine ⟨(tidy_and_calls_ofEmits emits).2, fun c hc d hd => ⟨fun h => ?_, fun h => congrArg _ h⟩, fun n => ?_, ?_⟩
  · exact SheetCall.eq_of_written (newline_notMem_of_mem_asked hc) (newline_notMem_of_mem_asked hd) h
  · rw [size, (tidy_and_calls_ofEmits (emits.take n)).2]
  · exact congrArg (fun calls => ("<?php\n" : Text) ++ calls.flatMap SheetCall.written) (tidy_and_calls_ofEmits emits).2

end CallSheet

end LocalePages
