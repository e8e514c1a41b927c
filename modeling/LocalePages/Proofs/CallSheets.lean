import LocalePages.Proofs.Building
import LocalePages.Proofs.Literals
import LocalePages.Run.Extraction

/-!
# What a call sheet holds

A literal ends at the first quote that has no backslash before it, so what is written after one determines nothing of the text in
it (`Literal.written_append_inj`). Calls that are written alike are thus for the same text in the same domain
(`SheetCall.written_inj`), and leaving one of them out loses no text. A call sheet for a page holds exactly the texts that the
page offers (`CallSheet.mem_strings_addPage`).
-/

namespace LocalePages

namespace SheetCall

/-- Calls that are made alike are for the same text in the same domain. -/
theorem expression_inj {c d : SheetCall} (h : c.expression = d.expression) : c.domain = d.domain ∧ c.canonical = d.canonical := by
  unfold expression at h
  cases hc : c.domain with
  | none =>
    cases hd : d.domain with
    | none =>
      simp only [hc, hd, List.append_assoc] at h
      exact ⟨rfl, (Literal.written_append_inj (List.append_cancel_left h)).1⟩
    | some domain =>
      simp [hc, hd] at h
  | some domain =>
    cases hd : d.domain with
    | none => simp [hc, hd] at h
    | some domain' =>
      simp only [hc, hd, List.append_assoc] at h
      obtain ⟨hdomain, hrest⟩ := Literal.written_append_inj (List.append_cancel_left h)
      exact ⟨by rw [hdomain], (Literal.written_append_inj (List.append_cancel_left hrest)).1⟩

/-- The line above a call. -/
def commentLine (c : SheetCall) : Text := "// " ++ sourceCommentTag ++ " " ++ c.comment

/-- A call stands on the line after its comment. -/
theorem written_eq (c : SheetCall) : c.written = c.commentLine ++ '\n' :: (c.expression ++ ['\n']) := by
  show c.commentLine ++ ['\n'] ++ c.expression ++ ['\n'] = _
  simp only [List.append_assoc, List.cons_append, List.nil_append]

/-- Where a comment has one line, the call starts after the first one. -/
theorem cutAt?_written {c : SheetCall} (h : '\n' ∉ c.comment) :
    Text.cutAt? '\n' c.written = some (c.commentLine, c.expression ++ ['\n']) := by
  have hline : '\n' ∉ c.commentLine := by
    simp only [commentLine, List.mem_append, not_or]
    exact ⟨⟨⟨by decide, by decide⟩, by decide⟩, h⟩
  rw [written_eq, Text.cutAt?_append _ hline]

/-- Calls that are written alike are for the same text in the same domain. No comment has more than one line. -/
theorem written_inj {c d : SheetCall} (hc : '\n' ∉ c.comment) (hd : '\n' ∉ d.comment) (h : c.written = d.written) :
    c.domain = d.domain ∧ c.canonical = d.canonical := by
  have hcut := cutAt?_written hc
  rw [h, cutAt?_written hd, Option.some.injEq, Prod.mk.injEq] at hcut
  exact expression_inj (List.append_cancel_right hcut.2).symm

end SheetCall

namespace CallSheet

/-- The texts that a call sheet has calls for, with their domains, on a page with a domain of its own. -/
def strings (s : CallSheet) (domain : Text) : List (Text × Text) := s.calls.map fun c => (c.domain.getD domain, c.canonical)

/-- No comment of a call sheet has more than one line. -/
def Tidy (s : CallSheet) : Prop := ∀ c ∈ s.calls, '\n' ∉ c.comment

/-- A canonical text has one line. -/
theorem newline_not_mem_canonical (t : Text) : '\n' ∉ Text.canonical t := by
  intro h
  exact absurd (Text.eq_space_of_mem_canonical h (by decide)) (by decide)

/-- A call that is added is the one it was added as. Its comment is canonical. -/
theorem mem_calls_emit {s : CallSheet} {domain : Option Text} {canonical comment : Text} {c : SheetCall}
    (h : c ∈ (s.emit domain canonical comment).calls) : c ∈ s.calls ∨ c = ⟨domain, canonical, Text.canonical comment⟩ := by
  unfold emit at h
  dsimp only at h
  split at h
  · exact Or.inl h
  · exact (List.mem_append.1 h).imp_right List.mem_singleton.1

/-- A call sheet gets no comment with more than one line. -/
theorem tidy_emit {s : CallSheet} (h : s.Tidy) (domain : Option Text) (canonical comment : Text) :
    (s.emit domain canonical comment).Tidy := by
  intro c hc
  obtain hc | rfl := mem_calls_emit hc
  · exact h c hc
  · exact newline_not_mem_canonical comment

/-- A call that is added is for a text that is not empty. When it is left out although its text is not empty, a call for the same
text in the same domain is there. -/
theorem mem_strings_emit {s : CallSheet} (h : s.Tidy) (default : Text) (domain : Option Text) (canonical comment : Text)
    (x : Text × Text) :
    x ∈ (s.emit domain canonical comment).strings default ↔
      x ∈ s.strings default ∨ (canonical ≠ [] ∧ x = (domain.getD default, canonical)) := by
  unfold emit
  dsimp only
  by_cases hempty : canonical = []
  · simp [hempty]
  · by_cases hthere : ∃ c ∈ s.calls, c.written = (SheetCall.mk domain canonical (Text.canonical comment)).written
    · have hskip : (canonical.isEmpty || s.calls.any fun c =>
          c.written == (SheetCall.mk domain canonical (Text.canonical comment)).written) = true := by
        simpa [hempty] using hthere
      rw [if_pos hskip]
      refine ⟨Or.inl, fun hx => hx.elim id fun ⟨_, hx⟩ => ?_⟩
      obtain ⟨c, hc, hwritten⟩ := hthere
      obtain ⟨hdomain, hcanonical⟩ := SheetCall.written_inj (h c hc) (newline_not_mem_canonical comment) hwritten
      exact List.mem_map.2 ⟨c, hc, by rw [hx, hdomain, hcanonical]⟩
    · have hadd : ¬(canonical.isEmpty || s.calls.any fun c =>
          c.written == (SheetCall.mk domain canonical (Text.canonical comment)).written) = true := by
        simpa [hempty] using hthere
      rw [if_neg hadd]
      simp [strings, hempty]

/-- The calls for the bindings of an element are for the texts they are about. -/
theorem mem_strings_foldl_emit (mark file default : Text) (e : Element) (as : List Binding) {s : CallSheet} (h : s.Tidy) :
    let sheet := as.foldl (fun s a => s.emit a.domain (e.canonical a.keyword) (comment file mark e a.keyword)) s
    sheet.Tidy ∧ ∀ x, x ∈ sheet.strings default ↔
      x ∈ s.strings default ∨
        ∃ a ∈ as, e.canonical a.keyword ≠ [] ∧ x = (a.domainOr default, e.canonical a.keyword) := by
  induction as generalizing s with
  | nil => exact ⟨h, fun x => by simp⟩
  | cons a as ih =>
    obtain ⟨htidy, hmem⟩ := ih (tidy_emit h a.domain (e.canonical a.keyword) (comment file mark e a.keyword))
    refine ⟨htidy, fun x => ?_⟩
    rw [List.foldl_cons, hmem, mem_strings_emit h, or_assoc]
    simp only [List.mem_cons, exists_eq_or_imp]
    rfl

/-- The calls for an element are for the texts that it offers. -/
theorem mem_strings_addElement (mark file default : Text) (e : Element) {s : CallSheet} (log : Log) (h : s.Tidy) :
    (addElement mark file (s, log) e).1.Tidy ∧ ∀ x, x ∈ (addElement mark file (s, log) e).1.strings default ↔
      x ∈ s.strings default ∨ ∃ y ∈ Template.offeredBy mark default e, x = (y.1.domain, y.2) := by
  obtain ⟨htidy, hmem⟩ := mem_strings_foldl_emit mark file default e
    (((Tag.among (e.marker mark)).map Tag.binding).filter fun a => a.hash.isNone) h
  simp only [addElement, Tag.ofMarker_fst]
  refine ⟨htidy, fun x => (hmem x).trans (or_congr_right ?_)⟩
  constructor
  · rintro ⟨a, ha, hne, rfl⟩
    obtain ⟨ha, hhash⟩ := List.mem_filter.1 ha
    exact ⟨_, List.mem_filterMap.2 ⟨a, ha, Template.offered?_eq_some_iff.2 ⟨by simpa using hhash, hne, rfl⟩⟩, rfl⟩
  · rintro ⟨y, hy, rfl⟩
    obtain ⟨a, ha, hoffered⟩ := List.mem_filterMap.1 hy
    obtain ⟨hhash, hne, rfl⟩ := Template.offered?_eq_some_iff.1 hoffered
    exact ⟨a, List.mem_filter.2 ⟨ha, by simp [hhash]⟩, hne, rfl⟩

/-- A call sheet for a page holds exactly the texts that the page offers. -/
theorem mem_strings_addPage (mark file default : Text) (page : Document) (log : Log) (x : Text × Text) :
    x ∈ (addPage mark file page .empty log).1.strings default ↔ x ∈ Dictionary.strings (page.offered mark default) := by
  have hfold : ∀ (elements : List Element) (sheet : CallSheet) (log : Log), sheet.Tidy →
      (x ∈ (elements.foldl (addElement mark file) (sheet, log)).1.strings default ↔
        x ∈ sheet.strings default ∨ ∃ y ∈ elements.flatMap (Template.offeredBy mark default), x = (y.1.domain, y.2)) := by
    intro elements
    induction elements with
    | nil => simp
    | cons e rest ih =>
      intro sheet log h
      obtain ⟨htidy, hmem⟩ := mem_strings_addElement mark file default e log h
      rw [List.foldl_cons, ih _ _ htidy, hmem, or_assoc, List.flatMap_cons]
      simp only [List.mem_append, or_and_right, exists_or]
  have hpage := hfold (page.annotated mark) .empty log fun c hc => absurd hc List.not_mem_nil
  simpa [addPage, Document.offered, strings, Dictionary.strings, empty, @eq_comm _ x] using hpage

end CallSheet

end LocalePages
