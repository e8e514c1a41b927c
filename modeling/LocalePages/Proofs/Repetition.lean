import LocalePages.Page.Synthesis
import LocalePages.Proofs.SilentPasses
import LocalePages.Proofs.Writing

/-!
# Making a variant once more

A run that makes a variant once more finds what the last one has written. It repeats that run when it ends in the same way, logs no
error and leaves the disk as it is (`Synthesizer.Repeats`). That is so exactly when the same is to be made of the page that was
written, and localizing what it is made from gives the same text without an error (`Synthesizer.repeats_iff`). What was logged
before has no part in it: from any log, localizing gives the same page and logs as many errors
(`Synthesizer.localized_congr`).
-/

namespace LocalePages

/-! ## Pages on disk -/

namespace Document

variable {page : Document} {d d' : Disk} {path : Text}

/-- What is loaded from where a page was saved is read from the text of the page. -/
theorem load_of_save (h : page.save d path = .ok d') : load d' path = .ok ((parse page.toHtml).withPath path) := by
  rw [load, Disk.readText, Disk.read_write (save_eq_ok_iff.1 h)]

/-- Saving a page where another one was changes nothing exactly when they have the same text. -/
theorem save_eq_self_iff (h : page.save d path = .ok d') (other : Document) :
    other.save d' path = .ok d' ↔ other.toHtml = page.toHtml := by
  rw [save_eq_ok_iff, Disk.write_eq_self_iff (save_eq_ok_iff.1 h), FileContent.text.injEq]

end Document

/-! ## Localizing from another log -/

namespace Localization

/-- Two states with the same dictionary. The one has logged this many errors more than the other. -/
structure Progress.Alike (gap : Int) (p q : Progress) : Prop where
  dictionary : p.dictionary = q.dictionary
  errors : (p.log.count .error : Int) = q.log.count .error + gap

section

variable {gap : Int} {p q : Progress}

/-- Localizing a tag keeps states alike. -/
theorem alike_localizeTag (s : Setting) (e : Element) (t : Tag) (r : Revision) (h : p.Alike gap q) :
    (localizeTag s e t r p).2.2.Alike gap (localizeTag s e t r q).2.2 := by
  refine ⟨(localizeTag_congr t r h.dictionary).2.2, ?_⟩
  have herrors := h.errors
  unfold localizeTag
  rw [h.dictionary]
  dsimp only
  split
  · split
    · exact herrors
    · rw [Log.count_error_error, Log.count_error_error]
      omega
  · split
    · exact herrors
    · dsimp only [writeTag]
      split
      · rw [Log.count_error_warning, Log.count_error_warning]
        exact herrors
      · exact herrors

/-- Localizing tags keeps states alike. -/
theorem alike_localizeTags (s : Setting) (e : Element) (tags : List Tag) (r : Revision) (h : p.Alike gap q) :
    (localizeTags s e tags r p).2.2.Alike gap (localizeTags s e tags r q).2.2 := by
  induction tags generalizing r p q with
  | nil => exact h
  | cons t rest ih =>
    have hsame := (localizeTag_congr (s := s) (e := e) t r h.dictionary).2.1
    have hrest := ih (localizeTag s e t r q).2.1 (alike_localizeTag s e t r h)
    simp only [localizeTags, hsame]
    exact hrest

/-- Localizing an element keeps states alike. -/
theorem alike_localizeElement (mark : Text) (s : Setting) (e : Element) (h : p.Alike gap q) :
    (localizeElement mark s e p).2.Alike gap (localizeElement mark s e q).2 := by
  have hread : Progress.Alike gap ⟨p.dictionary, (Tag.ofMarker (e.marker mark) p.log).2, p.asked⟩
      ⟨q.dictionary, (Tag.ofMarker (e.marker mark) q.log).2, q.asked⟩ := by
    refine ⟨h.dictionary, ?_⟩
    have herrors := h.errors
    dsimp only
    rw [Tag.count_ofMarker, Tag.count_ofMarker]
    omega
  rw [localizeElement_eq, localizeElement_eq]
  exact alike_localizeTags s e _ _ hread

end

/-- From any log, localizing makes the same page and logs as many errors. -/
theorem localize_congr (scanner : Scanner) (lookup : CatalogLookup) (domain : Text) (locale : Locale) (d : Document)
    (dictionary : Dictionary) (log log' : Log) :
    (localize scanner lookup domain locale d dictionary log).1 = (localize scanner lookup domain locale d dictionary log').1 ∧
      (localize scanner lookup domain locale d dictionary log).2.log.count .error + log'.count .error =
        (localize scanner lookup domain locale d dictionary log').2.log.count .error + log.count .error := by
  let s := settingFor lookup domain locale (scanner.prepare d)
  let gap : Int := log.count .error - log'.count .error
  have hstart : Progress.Alike gap ⟨dictionary, log, []⟩ ⟨dictionary, log', []⟩ := ⟨rfl, by dsimp only [gap]; omega⟩
  have hstep : ∀ e p q, Progress.Alike gap p q → (localizeElement scanner.mark s e p).1 = (localizeElement scanner.mark s e q).1 ∧
      (localizeElement scanner.mark s e p).2.Alike gap (localizeElement scanner.mark s e q).2 := fun e p q h =>
    ⟨localizeElement_congr h.dictionary, alike_localizeElement scanner.mark s e h⟩
  obtain ⟨hnodes, hend⟩ := Node.sweepAll_congr hstep (scanner.prepare d).nodes hstart
  have herrors := hend.errors
  refine ⟨congrArg (fun nodes => { scanner.prepare d with nodes }) hnodes, ?_⟩
  unfold localize
  dsimp only [gap, s, settingFor] at herrors ⊢
  omega

end Localization

/-! ## Making a variant -/

namespace Synthesizer

variable {s : Synthesizer} {source : Text} {locale : Locale} {d d' : Disk} {log : Log} {made : Synthesis}

/-- A run repeats one that made the same of the same: it ends like that one, logs no error, and leaves the disk as it is. -/
structure Repeats (s : Synthesizer) (source : Text) (locale : Locale) (made : Synthesis) (d : Disk) (log : Log) : Prop where
  result : (s.synthesize source locale d log).1 = .ok made
  disk : (s.synthesize source locale d log).2.1 = d
  silent : (s.synthesize source locale d log).2.2.count .error = log.count .error

/-- What localizing a page with the dictionary of the template gives: the page, and how far it got with dictionary and log. -/
def pass (s : Synthesizer) (locale : Locale) (page : Document) (log : Log) : Document × Localization.Progress :=
  Localization.localize ⟨s.mark, true⟩ s.lookup s.domain locale page s.template.dictionary log

/-- The page that is localized. -/
theorem localized_fst (s : Synthesizer) (locale : Locale) (page : Document) (log : Log) :
    (s.localized locale page log).1 = (s.pass locale page log).1 := rfl

/-- The log after a page was localized. -/
theorem localized_snd (s : Synthesizer) (locale : Locale) (page : Document) (log : Log) :
    (s.localized locale page log).2 = (s.pass locale page log).2.log := rfl

/-- From any log, a page is localized in the same way and with as many errors. -/
theorem localized_congr (s : Synthesizer) (locale : Locale) (page : Document) (log log' : Log) :
    (s.localized locale page log).1 = (s.localized locale page log').1 ∧
      (s.localized locale page log).2.count .error + log'.count .error =
        (s.localized locale page log').2.count .error + log.count .error :=
  Localization.localize_congr ⟨s.mark, true⟩ s.lookup s.domain locale page s.template.dictionary log log'

/-- Whether localizing a page logs an error does not depend on what was logged before. -/
theorem silent_localized_iff (s : Synthesizer) (locale : Locale) (page : Document) (log log' : Log) :
    (s.localized locale page log).2.count .error = log.count .error ↔
      (s.localized locale page log').2.count .error = log'.count .error := by
  have hcount := (s.localized_congr locale page log log').2
  omega

/-- A page that is chosen is localized and saved. -/
theorem synthesize_of_choose {existing : Option Document} {page : Document}
    (hexisting : existing? d (locale.localizedPath source) = .ok existing)
    (hchosen : s.choose (locale.localizedPath source) existing = some (page, made))
    (hsave : (s.localized locale page (log.info (report (locale.localizedPath source) locale made))).1.save d
      (locale.localizedPath source) = .ok d') :
    s.synthesize source locale d log =
      (.ok made, d', (s.localized locale page (log.info (report (locale.localizedPath source) locale made))).2) := by
  simp only [synthesize, hexisting, hchosen, hsave]

/-- What was made of a page is what was chosen, localized and saved. -/
theorem exists_of_synthesize (hmade : made ≠ .skipped) (h : (s.synthesize source locale d log).1 = .ok made) :
    ∃ existing page, existing? d (locale.localizedPath source) = .ok existing ∧
      s.choose (locale.localizedPath source) existing = some (page, made) ∧
      (s.localized locale page (log.info (report (locale.localizedPath source) locale made))).1.save d
        (locale.localizedPath source) = .ok (s.synthesize source locale d log).2.1 ∧
      (s.synthesize source locale d log).2.2 =
        (s.localized locale page (log.info (report (locale.localizedPath source) locale made))).2 := by
  cases hexisting : existing? d (locale.localizedPath source) with
  | error e =>
    simp only [synthesize, hexisting] at h
    cases h
  | ok existing =>
    cases hchosen : s.choose (locale.localizedPath source) existing with
    | none =>
      simp only [synthesize, hexisting, hchosen] at h
      exact absurd (Except.ok.inj h).symm hmade
    | some chosen =>
      obtain ⟨page, kind⟩ := chosen
      cases hsave : (s.localized locale page (log.info (report (locale.localizedPath source) locale kind))).1.save d
          (locale.localizedPath source) with
      | error e =>
        simp only [synthesize, hexisting, hchosen, hsave] at h
        cases h
      | ok d' =>
        have heq := synthesize_of_choose hexisting hchosen hsave
        rw [heq] at h ⊢
        cases h
        exact ⟨existing, page, rfl, hchosen, hsave, rfl⟩

/-- A page is found where it was saved, as its text is read. -/
theorem existing?_of_save {page : Document} {target : Text} (h : page.save d target = .ok d') :
    existing? d' target = .ok (some ((Document.parse page.toHtml).withPath target)) := by
  rw [existing?, Disk.has_write (Document.save_eq_ok_iff.1 h), if_pos rfl, Document.load_of_save h]
  rfl

/-- A run repeats the one that saved a page exactly when the same is chosen to be made of the page, and what is localized then has
the text of the page and no error. -/
theorem repeats_iff {page : Document} (hmade : made ≠ .skipped) (hsave : page.save d (locale.localizedPath source) = .ok d') :
    s.Repeats source locale made d' log ↔
      ∃ chosen, s.choose (locale.localizedPath source)
          (some ((Document.parse page.toHtml).withPath (locale.localizedPath source))) = some (chosen, made) ∧
        (s.localized locale chosen log).1.toHtml = page.toHtml ∧
        (s.localized locale chosen log).2.count .error = log.count .error := by
  have hexisting := existing?_of_save hsave
  constructor
  · rintro ⟨hresult, hdisk, hsilent⟩
    obtain ⟨existing, chosen, hfound, hchosen, hagain, hlog⟩ := exists_of_synthesize hmade hresult
    obtain rfl := Except.ok.inj (hexisting.symm.trans hfound)
    refine ⟨chosen, hchosen, ?_, ?_⟩
    · rw [hdisk, Document.save_eq_self_iff hsave] at hagain
      rw [(s.localized_congr locale chosen log (log.info (report (locale.localizedPath source) locale made))).1]
      exact hagain
    · rw [hlog] at hsilent
      refine (s.silent_localized_iff locale chosen log (log.info (report (locale.localizedPath source) locale made))).2 ?_
      rw [hsilent, Log.count_error_info]
  · rintro ⟨chosen, hchosen, htext, hsilent⟩
    let log' := log.info (report (locale.localizedPath source) locale made)
    have htext' : (s.localized locale chosen log').1.toHtml = page.toHtml := by
      rw [(s.localized_congr locale chosen log' log).1, htext]
    have heq := synthesize_of_choose hexisting hchosen ((Document.save_eq_self_iff hsave _).2 htext')
    refine ⟨by rw [heq], by rw [heq], ?_⟩
    rw [heq]
    have hsilent' := (s.silent_localized_iff locale chosen log' log).2 hsilent
    rwa [Log.count_error_info] at hsilent'

end Synthesizer

end LocalePages
