import LocalePages.Proofs.Texts

/-!
# Runs of texts

A text consists of blanks and of the maximal runs of other characters between them (`Text.HasRuns`). Every text has one list of runs, and
it is found by cutting at each blank (`Text.hasRuns_iff`). The canonical form of a text has the same runs with a single space between
two of them, and no other blank. So it stands for the list of runs: two texts have the same canonical form exactly when they have the
same runs in the same order (`Text.canonical_spec`).
-/

namespace LocalePages

/-- Whether a text has these maximal runs of characters that are not blank, in this order: before a run there are only blanks up to
the run before it or the start, and right after it there is a blank or the end. -/
inductive Text.HasRuns : Text → List Text → Prop where
  | blank {gap : Text} (hgap : ∀ c ∈ gap, isBlank c = true) : HasRuns gap []
  | run {gap run rest : Text} {runs : List Text} (hgap : ∀ c ∈ gap, isBlank c = true) (hrun : run.Solid)
      (hend : ∀ c ∈ rest.head?, isBlank c = true) (hrest : HasRuns rest runs) : HasRuns (gap ++ (run ++ rest)) (run :: runs)

namespace Text

/-! ## Words around blanks -/

/-- A blank before a text is in none of its words. -/
theorem words_cons_blank {c : Char} (t : Text) (hc : isBlank c = true) : words (c :: t) = words t :=
  words_append_blank [] t hc

/-- Blanks before a text are in none of its words. -/
theorem words_prepend {gap : Text} (t : Text) (h : ∀ c ∈ gap, isBlank c = true) : words (gap ++ t) = words t := by
  induction gap with
  | nil => rfl
  | cons c gap ih =>
    obtain ⟨hc, hgap⟩ := List.forall_mem_cons.1 h
    rw [List.cons_append, words_cons_blank _ hc, ih hgap]

/-- A solid text up to a blank is the first word. -/
theorem words_append_of_solid {w t : Text} (hw : w.Solid) (ht : ∀ c ∈ t.head?, isBlank c = true) :
    words (w ++ t) = w :: words t := by
  cases t with
  | nil => rw [List.append_nil, words_of_solid hw, words_eq_nil_iff.2 (by simp)]
  | cons c t =>
    have hc : isBlank c = true := ht c rfl
    rw [words_append_blank w t hc, words_of_solid hw, words_cons_blank t hc, List.singleton_append]

/-! ## Runs -/

/-- The runs of a text are found by cutting it at its blanks. -/
theorem HasRuns.words_eq {t : Text} {runs : List Text} (h : t.HasRuns runs) : words t = runs := by
  induction h with
  | blank hgap => exact words_eq_nil_iff.2 hgap
  | run hgap hrun hend _ ih => rw [words_prepend _ hgap, words_append_of_solid hrun hend, ih]

/-- One more blank before a text changes no run. -/
theorem HasRuns.cons_blank {c : Char} {t : Text} {runs : List Text} (hc : isBlank c = true) (h : t.HasRuns runs) :
    HasRuns (c :: t) runs := by
  cases h with
  | blank hgap => exact .blank (List.forall_mem_cons.2 ⟨hc, hgap⟩)
  | run hgap hrun hend hrest => exact .run (List.forall_mem_cons.2 ⟨hc, hgap⟩) hrun hend hrest

/-- A solid text up to a blank is the first run. -/
theorem HasRuns.first {run rest : Text} {runs : List Text} (hrun : run.Solid) (hend : ∀ c ∈ rest.head?, isBlank c = true)
    (hrest : rest.HasRuns runs) : HasRuns (run ++ rest) (run :: runs) := .run (List.forall_mem_nil _) hrun hend hrest

/-- One more character before a text goes with the run that starts there, or else is a run of its own. -/
theorem HasRuns.cons_solid {c : Char} {t : Text} {runs : List Text} (hc : isBlank c = false) (h : t.HasRuns runs) :
    ∃ longer, HasRuns (c :: t) longer := by
  have hone : Text.Solid [c] := ⟨by simp, by simpa using hc⟩
  cases h with
  | blank hgap => exact ⟨[[c]], .first hone (fun d hd => hgap d (List.mem_of_mem_head? hd)) (.blank hgap)⟩
  | @run gap run rest runs hgap hrun hend hrest =>
    -- the run starts where the text does exactly when no blank is before it
    cases gap with
    | nil =>
      have hlonger : Text.Solid (c :: run) := ⟨by simp, List.forall_mem_cons.2 ⟨hc, hrun.2⟩⟩
      exact ⟨(c :: run) :: runs, .first hlonger hend hrest⟩
    | cons d gap =>
      have hd : isBlank d = true := hgap d List.mem_cons_self
      exact ⟨[c] :: run :: runs, .first hone (by simpa using hd) (.run hgap hrun hend hrest)⟩

/-- Every text has runs. -/
theorem exists_hasRuns (t : Text) : ∃ runs, t.HasRuns runs := by
  induction t with
  | nil => exact ⟨[], .blank (by simp)⟩
  | cons c t ih =>
    obtain ⟨runs, hruns⟩ := ih
    cases hc : isBlank c with
    | true => exact ⟨runs, hruns.cons_blank hc⟩
    | false => exact hruns.cons_solid hc

/-- A text has one list of runs, its words. -/
theorem hasRuns_iff {t : Text} {runs : List Text} : t.HasRuns runs ↔ runs = words t := by
  constructor
  · intro h
    exact h.words_eq.symm
  · rintro rfl
    obtain ⟨runs, hruns⟩ := exists_hasRuns t
    rwa [hruns.words_eq]

instance (t : Text) (runs : List Text) : Decidable (t.HasRuns runs) := decidable_of_iff _ hasRuns_iff.symm

/-! ## Canonical forms -/

/-- Solid texts joined by spaces have one blank fewer than there are texts. -/
theorem countP_isBlank_joinWith {ws : List Text} (h : ∀ w ∈ ws, w.Solid) : (joinWith " " ws).countP isBlank = ws.length - 1 := by
  have hnone : ∀ {w : Text}, w.Solid → w.countP isBlank = 0 := fun hw => List.countP_eq_zero.2 (by simpa using hw.2)
  induction ws with
  | nil => rfl
  | cons w ws ih =>
    obtain ⟨hw, hws⟩ := List.forall_mem_cons.1 h
    cases ws with
    | nil => rw [joinWith_singleton, hnone hw, List.length_singleton]
    | cons v ws =>
      have hspace : List.countP isBlank (" " : Text) = 1 := by decide
      rw [joinWith_cons_cons, List.countP_append, List.countP_append, hnone hw, hspace, ih hws]
      simp only [List.length_cons]
      omega

/-- Texts have the same canonical form exactly when they have the same words. -/
theorem canonical_eq_iff {a b : Text} : canonical a = canonical b ↔ words a = words b := by
  constructor
  · intro h
    rw [← words_canonical a, h, words_canonical]
  · intro h
    exact congrArg (joinWith " ") h

/-- The canonical form of a text has the one list of runs that the text has, in the same order, with a single space between two runs
and no blank anywhere else. It is its own canonical form, it is that of the texts that have the same runs and of no others, and it is
empty exactly when the text is blank all through. -/
theorem canonical_spec (a b : Text) :
    (∃ runs, (∀ others, a.HasRuns others ↔ others = runs) ∧ (canonical a).HasRuns runs ∧ canonical a = joinWith " " runs ∧
        (canonical a).countP isBlank = runs.length - 1 ∧ ∀ c ∈ canonical a, isBlank c = true → c = ' ') ∧
      canonical (canonical a) = canonical a ∧
      (canonical a = canonical b ↔ ∃ runs, a.HasRuns runs ∧ b.HasRuns runs) ∧
      (canonical a = [] ↔ ∀ c ∈ a, isBlank c = true) := by
  have hsame : canonical a = canonical b ↔ ∃ runs, a.HasRuns runs ∧ b.HasRuns runs := by
    simp only [hasRuns_iff, exists_eq_left]
    exact canonical_eq_iff
  refine ⟨⟨words a, fun _ => hasRuns_iff, ?_, rfl, ?_, fun _ => eq_space_of_mem_canonical⟩, canonical_canonical a, hsame,
    canonical_eq_nil_iff⟩
  · rw [hasRuns_iff, words_canonical]
  · exact countP_isBlank_joinWith fun _ => solid_of_mem_words

/-- A no-break space and a line tabulation are content. -/
example : Text.HasRuns " \t10\u00a0km\x0b\r\n or\x0c  more" ["10\u00a0km\x0b", "or", "more"] ∧
    canonical " \t10\u00a0km\x0b\r\n or\x0c  more" = ("10\u00a0km\x0b or more" : Text) := by decide

end Text

end LocalePages
