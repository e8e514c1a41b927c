import LocalePages.Proofs.EarlierDictionaries
import LocalePages.Proofs.Repetition

/-!
# Cherry-picking a page once more

A cherry-picked page is its own source for the next run. That run starts from the dictionary of the template again, not from what
the last one has added to it. So where everything else is as it should be (`Synthesizer.Returns`), a run is repeated by the next one
exactly when the template knows every hash in the page (`Synthesizer.repeats_cherryPicked_iff`), as it does when all texts of the
page are those of the template (`Synthesizer.repeats_of_known`). A text that is only in the page gets a hash that the template does
not know, and the next run logs an error for it (`Synthesizer.repeats_cherryPicked_false`).
-/

namespace LocalePages

namespace Synthesizer

variable {s : Synthesizer} {source : Text} {locale : Locale} {d : Disk} {log : Log}

/-- A page that was written returns: it is read as it was written, as a page to cherry-pick that declares its character set, and
localizing it with the dictionary that it was written with changes nothing. -/
structure Returns (s : Synthesizer) (locale : Locale) (page : Document) (dictionary : Dictionary) (d : Disk) (target : Text) :
    Prop where
  read : Document.load d target = .ok page
  mode : page.mode = some .cherryPick
  charset : page.withCharset = page
  stable : (Localization.localize ⟨s.mark, false⟩ s.lookup s.domain locale page dictionary .empty).1 = page

instance (s : Synthesizer) (locale : Locale) (page : Document) (dictionary : Dictionary) (d : Disk) (target : Text) :
    Decidable (s.Returns locale page dictionary d target) :=
  decidable_of_iff (Document.load d target = .ok page ∧ page.mode = some .cherryPick ∧ page.withCharset = page ∧
      (Localization.localize ⟨s.mark, false⟩ s.lookup s.domain locale page dictionary .empty).1 = page)
    ⟨fun ⟨hread, hmode, hcharset, hstable⟩ => ⟨hread, hmode, hcharset, hstable⟩,
      fun h => ⟨h.read, h.mode, h.charset, h.stable⟩⟩

/-- What is cherry-picked is the localized page, and as many errors are logged as by localizing it. -/
theorem save_of_cherryPicked {existing : Document} (hexisting : Document.load d (locale.localizedPath source) = .ok existing)
    (hmade : (s.synthesize source locale d log).1 = .ok .cherryPicked) :
    (s.pass locale existing log).1.save d (locale.localizedPath source) = .ok (s.synthesize source locale d log).2.1 ∧
      (s.synthesize source locale d log).2.2.count .error = (s.pass locale existing log).2.log.count .error := by
  obtain ⟨found, page, hfound, hchosen, hsave, hlog⟩ := exists_of_synthesize (by decide) hmade
  have hpage : page = existing := by
    unfold existing? at hfound
    split at hfound
    · rw [hexisting] at hfound
      obtain rfl := Except.ok.inj hfound
      obtain ⟨-, -, hother⟩ | ⟨-, hpage, -⟩ := choose_eq_some_iff.1 hchosen
      · cases hother
      · exact hpage
    · obtain rfl := Except.ok.inj hfound
      have hreplaced := congrArg Prod.snd (Option.some.inj hchosen)
      cases hreplaced
  subst hpage
  let first := log.info (report (locale.localizedPath source) locale .cherryPicked)
  obtain ⟨hsame, hcount⟩ := s.localized_congr locale page first log
  rw [hsame, localized_fst] at hsave
  have hinfo : first.count .error = log.count .error := Log.count_error_info _ _
  rw [localized_snd s locale page log] at hcount
  refine ⟨hsave, ?_⟩
  rw [hlog]
  change (s.localized locale page first).2.count .error = _
  omega

/-- Localizing a page that declares its character set is localizing its tags. -/
theorem pass_of_charset {page : Document} (h : page.withCharset = page) (log : Log) :
    s.pass locale page log =
      Localization.localize ⟨s.mark, false⟩ s.lookup s.domain locale page s.template.dictionary log := by
  change Localization.localize ⟨s.mark, false⟩ s.lookup s.domain locale page.withCharset s.template.dictionary log = _
  rw [h]

/-- Every marker in a page that was localized is one that localizing could have written. -/
theorem hasWrittenMarker_pass {page : Document} {e : Element} (he : e ∈ (s.pass locale page log).1.annotated s.mark) :
    e.HasWrittenMarker s.mark :=
  Localization.hasWrittenMarker_of_mem_localize (d := page.withCharset) he

/-- Every element of a page that returns is settled. -/
theorem settled_of_returns {page : Document} {target : Text}
    (hreturns : s.Returns locale (s.pass locale page log).1 (s.pass locale page log).2.dictionary d target) :
    ∀ e ∈ (s.pass locale page log).1.annotated s.mark,
      Localization.Settled s.mark (Localization.settingFor s.lookup s.domain locale (s.pass locale page log).1)
        (s.pass locale page log).2.dictionary e :=
  (Localization.localize_eq_self_iff .empty fun _ => hasWrittenMarker_pass).1 hreturns.stable

/-- Localizing loses no text of the template. -/
theorem within_pass (s : Synthesizer) (locale : Locale) (page : Document) (log : Log) :
    s.template.dictionary.Within (s.pass locale page log).2.dictionary :=
  (Localization.leadsTo_localize ⟨s.mark, true⟩ s.lookup s.domain locale page s.template.dictionary log).dictionary

/-- What the next run makes of a page that was cherry-picked and returns: it localizes the page that was written. -/
theorem repeats_iff_of_returns {existing : Document} (log' : Log)
    (hexisting : Document.load d (locale.localizedPath source) = .ok existing)
    (hmade : (s.synthesize source locale d log).1 = .ok .cherryPicked)
    (hreturns : s.Returns locale (s.pass locale existing log).1 (s.pass locale existing log).2.dictionary
      (s.synthesize source locale d log).2.1 (locale.localizedPath source)) :
    s.Repeats source locale .cherryPicked (s.synthesize source locale d log).2.1 log' ↔
      (s.pass locale (s.pass locale existing log).1 log').1.toHtml = (s.pass locale existing log).1.toHtml ∧
        (s.pass locale (s.pass locale existing log).1 log').2.log.count .error = log'.count .error := by
  obtain ⟨hsave, -⟩ := save_of_cherryPicked hexisting hmade
  have hread := hreturns.read
  rw [Document.load_of_save hsave, Except.ok.injEq] at hread
  rw [repeats_iff (by decide) hsave, hread]
  constructor
  · rintro ⟨chosen, hchosen, htext, herrors⟩
    obtain ⟨-, -, hother⟩ | ⟨-, rfl, -⟩ := choose_eq_some_iff.1 hchosen
    · cases hother
    · exact ⟨htext, herrors⟩
  · rintro ⟨htext, herrors⟩
    exact ⟨_, choose_eq_some_iff.2 (Or.inr ⟨hreturns.mode, rfl, rfl⟩), htext, herrors⟩

/-- The next run repeats the run that has cherry-picked a page when the page returns and the template knows all its hashes. -/
theorem repeats_of_resolves {existing : Document} (log' : Log)
    (hexisting : Document.load d (locale.localizedPath source) = .ok existing)
    (hmade : (s.synthesize source locale d log).1 = .ok .cherryPicked)
    (hreturns : s.Returns locale (s.pass locale existing log).1 (s.pass locale existing log).2.dictionary
      (s.synthesize source locale d log).2.1 (locale.localizedPath source))
    (hres : ∀ e ∈ (s.pass locale existing log).1.annotated s.mark,
      Localization.Resolves s.domain s.template.dictionary (e.bindings s.mark)) :
    s.Repeats source locale .cherryPicked (s.synthesize source locale d log).2.1 log' := by
  obtain ⟨hsame, hlog⟩ := Localization.localize_of_within log' (within_pass s locale existing log)
    (fun _ => hasWrittenMarker_pass) (settled_of_returns hreturns) hres
  rw [repeats_iff_of_returns log' hexisting hmade hreturns, pass_of_charset hreturns.charset, hsame, hlog]
  exact ⟨rfl, rfl⟩

/-- Where a page was cherry-picked and returns, the next run cherry-picks it again, logs no error and leaves the disk as it is,
exactly when the dictionary of the template knows the hash of every tag in the page. -/
theorem repeats_cherryPicked_iff (s : Synthesizer) (source : Text) (locale : Locale) (d : Disk) (log log' : Log)
    {existing : Document} (hexisting : Document.load d (locale.localizedPath source) = .ok existing)
    (hmade : (s.synthesize source locale d log).1 = .ok .cherryPicked)
    (hreturns : s.Returns locale (s.pass locale existing log).1 (s.pass locale existing log).2.dictionary
      (s.synthesize source locale d log).2.1 (locale.localizedPath source)) :
    s.Repeats source locale .cherryPicked (s.synthesize source locale d log).2.1 log' ↔
      ∀ e ∈ (s.pass locale existing log).1.annotated s.mark,
        Localization.Resolves s.domain s.template.dictionary (e.bindings s.mark) := by
  refine ⟨fun hrepeats => ?_, repeats_of_resolves log' hexisting hmade hreturns⟩
  obtain ⟨-, herrors⟩ := (repeats_iff_of_returns log' hexisting hmade hreturns).1 hrepeats
  rw [pass_of_charset hreturns.charset] at herrors
  exact Localization.resolves_of_count_localize (within_pass s locale existing log)
    (fun e he => (settled_of_returns hreturns e he).quiet) herrors

/-- Where a page was cherry-picked without an error and returns, the next run repeats the run when all texts of the page are those
of the template: localizing it has added nothing to the dictionary. -/
theorem repeats_of_known {existing : Document} (log' : Log)
    (hexisting : Document.load d (locale.localizedPath source) = .ok existing)
    (hmade : (s.synthesize source locale d log).1 = .ok .cherryPicked)
    (hreturns : s.Returns locale (s.pass locale existing log).1 (s.pass locale existing log).2.dictionary
      (s.synthesize source locale d log).2.1 (locale.localizedPath source))
    (hsilent : (s.synthesize source locale d log).2.2.count .error = log.count .error)
    (hknown : (s.pass locale existing log).2.dictionary = s.template.dictionary) :
    s.Repeats source locale .cherryPicked (s.synthesize source locale d log).2.1 log' := by
  refine repeats_of_resolves log' hexisting hmade hreturns fun f hf => ?_
  rw [(save_of_cherryPicked hexisting hmade).2] at hsilent
  rw [← hknown]
  exact Localization.resolves_of_mem_localize (d := existing.withCharset) hsilent hf (settled_of_returns hreturns f hf).distinct

/-! ## Texts of the page's own -/

namespace OwnTextWitness

/-- A page that says "Hello". -/
def page : Document := ⟨[.element (.html "p") [⟨.none, "gettext", "."⟩] [.text "Hello"]], none⟩

/-- What makes variants of the page, with a catalog that has no text. -/
def synthesizer : Synthesizer :=
  ⟨fun _ canonical _ => canonical, "gettext", "app", (Template.build ⟨"gettext", true⟩ "app" page .empty).1⟩

/-- A variant that says what the page says. -/
def same : Text := "<meta name=gettext content=cherry-pick><p gettext=.>Hello"

/-- A variant that says something of its own. -/
def changed : Text := "<meta name=gettext content=cherry-pick><p gettext=.>Goodbye"

/-- The locale of the variants. -/
def czech : Locale := ⟨"cs", none, "CZ", [], none⟩

/-- A folder with a variant. -/
def disk (page : Text) : Disk :=
  ⟨[(["p"], .folder true), (["p", "index.cs-CZ.html"], .file (.text page) false)], ["p"]⟩

/-- The variant as it is read. -/
def existing : Document := (Document.parse same).withPath "index.cs-CZ.html"

/-- The variant that says the same is read from its folder and cherry-picked. It returns, and the template knows its hashes. -/
theorem cherryPicked_same : Document.load (disk same) (czech.localizedPath "index.html") = .ok existing ∧
    (synthesizer.synthesize "index.html" czech (disk same) .empty).1 = .ok .cherryPicked ∧
    synthesizer.Returns czech (synthesizer.pass czech existing .empty).1 (synthesizer.pass czech existing .empty).2.dictionary
      (synthesizer.synthesize "index.html" czech (disk same) .empty).2.1 (czech.localizedPath "index.html") ∧
    ∀ e ∈ (synthesizer.pass czech existing .empty).1.annotated synthesizer.mark,
      Localization.Resolves synthesizer.domain synthesizer.template.dictionary (e.bindings synthesizer.mark) := by
  decide +kernel

/-- The variant that says something of its own is cherry-picked without an error, and by the next run with one. -/
theorem cherryPicked_changed :
    (Document.load (disk changed) (czech.localizedPath "index.html")).map Document.mode = .ok (some .cherryPick) ∧
    (synthesizer.synthesize "index.html" czech (disk changed) .empty).1 = .ok .cherryPicked ∧
    (synthesizer.synthesize "index.html" czech (disk changed) .empty).2.2.count .error = Log.empty.count .error ∧
    (synthesizer.synthesize "index.html" czech
      (synthesizer.synthesize "index.html" czech (disk changed) .empty).2.1 .empty).2.2.count .error = 1 := by
  decide +kernel

end OwnTextWitness

open OwnTextWitness in
/-- A variant that says what the page says is cherry-picked again by the next run. -/
theorem repeats_cherryPicked_iff_same :
    (synthesizer.synthesize "index.html" czech (disk same) .empty).1 = .ok .cherryPicked ∧
      synthesizer.Repeats "index.html" czech .cherryPicked (synthesizer.synthesize "index.html" czech (disk same) .empty).2.1
        .empty := by
  obtain ⟨hexisting, hmade, hreturns, hresolves⟩ := cherryPicked_same
  have hrepeats := repeats_cherryPicked_iff synthesizer "index.html" czech (disk same) .empty .empty hexisting hmade hreturns
  exact ⟨hmade, hrepeats.2 hresolves⟩

open OwnTextWitness in
/-- Not every variant is cherry-picked again without an error: the variant that says something of its own gets a hash that the
template does not know. -/
theorem repeats_cherryPicked_false :
    ¬∀ (page : Document) (mark domain : Text) (lookup : CatalogLookup) (source : Text) (locale : Locale) (d : Disk)
        (log log' : Log),
      (Document.load d (locale.localizedPath source)).map Document.mode = .ok (some .cherryPick) →
        let s : Synthesizer := ⟨lookup, mark, domain, (Template.build ⟨mark, true⟩ domain page log).1⟩
        (s.synthesize source locale d log).1 = .ok .cherryPicked →
          (s.synthesize source locale d log).2.2.count .error = log.count .error →
            s.Repeats source locale .cherryPicked (s.synthesize source locale d log).2.1 log' := by
  intro h
  obtain ⟨hexisting, hmade, hquiet, herror⟩ := cherryPicked_changed
  rw [synthesizer] at hmade hquiet herror
  have hrepeats := h page "gettext" "app" (fun _ canonical _ => canonical) "index.html" czech (disk changed) .empty .empty hexisting
    hmade hquiet
  have hsilent := hrepeats.silent
  rw [herror] at hsilent
  cases hsilent

end Synthesizer

end LocalePages
