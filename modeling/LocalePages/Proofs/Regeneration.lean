import LocalePages.Proofs.Modes
import LocalePages.Proofs.PlainPages
import LocalePages.Proofs.Repetition

/-!
# Generating a page anew

A variant that was made from the template is made from it again by the next run, provided that the run finds it marked as a page
to be replaced. That is the whole condition, but for errors, which come again (`Synthesizer.repeats_replaced_iff`). It holds where
the mode elements of the template stand aside of what is localized and the page is read with the mode that it was written with
(`Synthesizer.repeats_of_modeAside`), as a plain page is (`Synthesizer.repeats_of_isPlain`). It does not hold always (`Synthesizer.repeats_replaced_false`): the mode is set before the
page is localized, so a tag of a mode element writes the text of the source over it.
-/

namespace LocalePages

namespace Synthesizer

variable {s : Synthesizer} {source : Text} {locale : Locale} {d : Disk} {log : Log}

/-- What is generated where nothing was is the localized template. -/
theorem exists_save_of_missing (hmissing : d.has (locale.localizedPath source) = false)
    (hmade : (s.synthesize source locale d log).1 = .ok .replaced) :
    let log' := log.info (report (locale.localizedPath source) locale .replaced)
    (s.localized locale (s.fresh (locale.localizedPath source)) log').1.save d (locale.localizedPath source) =
        .ok (s.synthesize source locale d log).2.1 ∧
      (s.synthesize source locale d log).2.2 = (s.localized locale (s.fresh (locale.localizedPath source)) log').2 := by
  obtain ⟨existing, page, hexisting, hchosen, hsave, hlog⟩ := exists_of_synthesize (by decide) hmade
  have hnone : existing? d (locale.localizedPath source) = .ok none := by simp [existing?, hmissing]
  obtain rfl : none = existing := Except.ok.inj (hnone.symm.trans hexisting)
  obtain rfl : s.fresh (locale.localizedPath source) = page := congrArg Prod.fst (Option.some.inj hchosen)
  exact ⟨hsave, hlog⟩

/-- What the next run makes of a page that was generated: the same, if it finds it marked as a page to be replaced. -/
theorem repeats_iff_of_missing (log' : Log) (hmissing : d.has (locale.localizedPath source) = false)
    (hmade : (s.synthesize source locale d log).1 = .ok .replaced) :
    s.Repeats source locale .replaced (s.synthesize source locale d log).2.1 log' ↔
      (Document.load (s.synthesize source locale d log).2.1 (locale.localizedPath source)).map Document.mode =
          .ok (some .replace) ∧
        (s.localized locale (s.fresh (locale.localizedPath source)) log').2.count .error = log'.count .error := by
  obtain ⟨hsave, -⟩ := exists_save_of_missing hmissing hmade
  have htext := (s.localized_congr locale (s.fresh (locale.localizedPath source)) log'
    (log.info (report (locale.localizedPath source) locale .replaced))).1
  rw [repeats_iff (by decide) hsave, Document.load_of_save hsave]
  constructor
  · rintro ⟨chosen, hchosen, -, herrors⟩
    obtain ⟨hmode, rfl, -⟩ | ⟨-, -, hother⟩ := choose_eq_some_iff.1 hchosen
    · exact ⟨congrArg Except.ok hmode, herrors⟩
    · cases hother
  · rintro ⟨hmode, herrors⟩
    exact ⟨_, choose_eq_some_iff.2 (Or.inl ⟨Except.ok.inj hmode, rfl, rfl⟩), congrArg Document.toHtml htext, herrors⟩

/-- A page is generated with an error from one log exactly when it is from any other. -/
theorem silent_iff_of_missing (log' : Log) (hmissing : d.has (locale.localizedPath source) = false)
    (hmade : (s.synthesize source locale d log).1 = .ok .replaced) :
    (s.synthesize source locale d log).2.2.count .error = log.count .error ↔
      (s.localized locale (s.fresh (locale.localizedPath source)) log').2.count .error = log'.count .error := by
  obtain ⟨-, hlog⟩ := exists_save_of_missing hmissing hmade
  rw [hlog, s.silent_localized_iff locale _ log' (log.info (report (locale.localizedPath source) locale .replaced)),
    Log.count_error_info]

/-- Where a page was generated, the next run generates it again, logs no error and leaves the disk as it is, exactly when it finds
the page marked as one to be replaced and the first run has logged no error. -/
theorem repeats_replaced_iff (s : Synthesizer) (source : Text) (locale : Locale) (d : Disk) (log log' : Log)
    (hmissing : d.has (locale.localizedPath source) = false) (hmade : (s.synthesize source locale d log).1 = .ok .replaced) :
    s.Repeats source locale .replaced (s.synthesize source locale d log).2.1 log' ↔
      (Document.load (s.synthesize source locale d log).2.1 (locale.localizedPath source)).map Document.mode =
          .ok (some .replace) ∧
        (s.synthesize source locale d log).2.2.count .error = log.count .error := by
  rw [repeats_iff_of_missing log' hmissing hmade, silent_iff_of_missing log' hmissing hmade]

/-- Where the template has a mode, its mode elements stand aside of what is localized, and the page that was generated is read with
the mode that it was written with, the next run repeats a run without errors. -/
theorem repeats_of_modeAside (log' : Log) (hmissing : d.has (locale.localizedPath source) = false)
    (hmade : (s.synthesize source locale d log).1 = .ok .replaced)
    (hsilent : (s.synthesize source locale d log).2.2.count .error = log.count .error)
    (hmode : s.template.document.copy.modeCount ≠ 0)
    (haside : (s.fresh (locale.localizedPath source)).withCharset.ModeAside s.mark)
    (hread : (Document.load (s.synthesize source locale d log).2.1 (locale.localizedPath source)).map Document.mode =
      .ok (s.localized locale (s.fresh (locale.localizedPath source)) log).1.mode) :
    s.Repeats source locale .replaced (s.synthesize source locale d log).2.1 log' := by
  have hfresh : (s.fresh (locale.localizedPath source)).mode = some .replace :=
    Document.mode_setMode (d := s.template.document.copy.withPath (locale.localizedPath source)) hmode .replace
  have hmarker : (s.localized locale (s.fresh (locale.localizedPath source)) log).1.modeMarker =
      (s.fresh (locale.localizedPath source)).modeMarker := by
    rw [localized_fst]
    exact Localization.modeMarker_localize ⟨s.mark, true⟩ s.lookup s.domain locale s.template.dictionary log haside
  refine (repeats_iff_of_missing log' hmissing hmade).2 ⟨?_, (silent_iff_of_missing log' hmissing hmade).1 hsilent⟩
  rw [hread, Document.mode, hmarker]
  exact congrArg Except.ok hfresh

/-- Where the template has a mode, its mode elements stand aside of what is localized, and the page that was generated is plain, the
next run repeats a run without errors. -/
theorem repeats_of_isPlain (log' : Log) (hmissing : d.has (locale.localizedPath source) = false)
    (hmade : (s.synthesize source locale d log).1 = .ok .replaced)
    (hsilent : (s.synthesize source locale d log).2.2.count .error = log.count .error)
    (hmode : s.template.document.copy.modeCount ≠ 0)
    (haside : (s.fresh (locale.localizedPath source)).withCharset.ModeAside s.mark)
    (hplain : (s.localized locale (s.fresh (locale.localizedPath source)) log).1.isPlain = true) :
    s.Repeats source locale .replaced (s.synthesize source locale d log).2.1 log' := by
  obtain ⟨hsave, -⟩ := exists_save_of_missing hmissing hmade
  rw [(s.localized_congr locale (s.fresh (locale.localizedPath source)) _ log).1] at hsave
  refine repeats_of_modeAside log' hmissing hmade hsilent hmode haside ?_
  generalize (s.localized locale (s.fresh (locale.localizedPath source)) log).1 = page at hsave hplain ⊢
  have hnodes : ((Document.parse page.toHtml).withPath (locale.localizedPath source)).nodes = page.nodes :=
    page.nodes_parse_toHtml hplain
  rw [Document.load_of_save hsave, Except.map, Document.mode_congr hnodes]

/-! ## Translated modes -/

namespace TranslatedModeWitness

/-- A page. -/
def plain : Document := .parse "<meta name=\"gettext\" content=\"translate\"><p gettext=\".\">Hello</p>"

/-- A page whose mode is annotated as a text. -/
def annotated : Document := .parse "<meta name=\"gettext\" content=\"translate\" gettext=\"content\">"

/-- What makes variants of a page, with a catalog that has no text. -/
def synthesizer (page : Document) : Synthesizer :=
  ⟨fun _ canonical _ => canonical, "gettext", "app", (Template.build ⟨"gettext", true⟩ "app" page .empty).1⟩

/-- A folder without variants. -/
def disk : Disk := ⟨[(["p"], .folder true)], ["p"]⟩

/-- The locale of the variants. -/
def czech : Locale := ⟨"cs", none, "CZ", [], none⟩

/-- The variant of the plain page is generated, and may be generated again. -/
theorem replaced_plain : disk.has (czech.localizedPath "index.html") = false ∧
    ((synthesizer plain).synthesize "index.html" czech disk .empty).1 = .ok .replaced ∧
    (Document.load ((synthesizer plain).synthesize "index.html" czech disk .empty).2.1 (czech.localizedPath "index.html")).map
      Document.mode = .ok (some .replace) ∧
    ((synthesizer plain).synthesize "index.html" czech disk .empty).2.2.count .error = Log.empty.count .error := by
  decide +kernel

/-- The variant of the annotated page is generated, and skipped by the next run. -/
theorem skipped_annotated : annotated.mode = some .translate ∧
    ((synthesizer annotated).synthesize "index.html" czech disk .empty).1 = .ok .replaced ∧
    ((synthesizer annotated).synthesize "index.html" czech
      ((synthesizer annotated).synthesize "index.html" czech disk .empty).2.1 .empty).1 = .ok .skipped := by
  decide +kernel

end TranslatedModeWitness

open TranslatedModeWitness in
/-- The Czech variant of a page with a text is generated again by the next run. -/
theorem repeats_replaced_iff_plain :
    disk.has (czech.localizedPath "index.html") = false ∧
      ((synthesizer plain).synthesize "index.html" czech disk .empty).1 = .ok .replaced ∧
      (synthesizer plain).Repeats "index.html" czech .replaced
        ((synthesizer plain).synthesize "index.html" czech disk .empty).2.1 .empty := by
  obtain ⟨hmissing, hmade, hagain⟩ := replaced_plain
  have hrepeats := repeats_replaced_iff (synthesizer plain) "index.html" czech disk .empty .empty hmissing hmade
  exact ⟨hmissing, hmade, hrepeats.2 hagain⟩

open TranslatedModeWitness in
/-- Not every variant is generated again: when the tag of a mode element is about the mode, the variant has the mode of the source,
and the next run leaves it alone. -/
theorem repeats_replaced_false :
    ¬∀ (page : Document) (mark domain : Text) (lookup : CatalogLookup) (source : Text) (locale : Locale) (d : Disk)
        (log log' : Log),
      page.mode = some .translate → d.has (locale.localizedPath source) = false →
        let s : Synthesizer := ⟨lookup, mark, domain, (Template.build ⟨mark, true⟩ domain page log).1⟩
        (s.synthesize source locale d log).1 = .ok .replaced →
          s.Repeats source locale .replaced (s.synthesize source locale d log).2.1 log' := by
  intro h
  obtain ⟨hmode, hmade, hskipped⟩ := skipped_annotated
  have hrepeats := h annotated "gettext" "app" (fun _ canonical _ => canonical) "index.html" czech disk .empty .empty hmode
    replaced_plain.1 hmade
  have hreplaced := hrepeats.result
  rw [synthesizer] at hskipped
  rw [hskipped] at hreplaced
  cases hreplaced

end Synthesizer

end LocalePages
