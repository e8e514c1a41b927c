import LocalePages.Proofs.VariantSteps
import Mathlib.Logic.Relation

/-!
# The order of locales

The variants of a page for several locales are made one after the other, from one template. Each is told by what was under its own
name before all of them (`Synthesizer.synthesizeAll_eq`), so that the locales do not influence each other: in every order each
locale gets the same result and the same file (`Synthesizer.synthesizeAll_of_perm`). A variant that is made from the template
does not depend on what it replaces, whatever the variants were before.
-/

namespace LocalePages

open Disk

namespace Synthesizer

variable {s : Synthesizer} {source : Text} {l : Locale} {ls ls' : List Locale} {d d' : Disk} {p : Place} {log log' : Log}

/-- Makes the variants of a source page for some locales, one after the other. Each result comes with its locale. -/
def synthesizeAll (s : Synthesizer) (source : Text) :
    List Locale → Disk → Log → List (Locale × Except PageError Synthesis) × Disk × Log
  | [], d, log => ([], d, log)
  | l :: ls, d, log =>
    let (result, d, log) := s.synthesize source l d log
    let (results, d, log) := synthesizeAll s source ls d log
    ((l, result) :: results, d, log)

/-- Whether a variant is missing or says that it may be replaced. -/
def MayReplace (d : Disk) (target : Text) : Prop :=
  existing? d target = .ok none ∨ ∃ page, existing? d target = .ok (some page) ∧ page.mode = some .replace

/-- The places of the variants in the folder of the page. -/
def IsVariantPlace (source : Text) (p : Place) (ls : List Locale) (q : Place) : Prop := ∃ l ∈ ls, q = p ++ [l.variantName source]

/-- Variants for locales that are written differently have different places. -/
theorem ne_of_nodup_web (source : Text) (p : Place) (hweb : ((l :: ls).map Locale.web).Nodup) :
    ∀ l' ∈ ls, p ++ [l'.variantName source] ≠ p ++ [l.variantName source] := by
  intro l' hl' hsame
  have hname : l'.variantName source = l.variantName source := by simpa using hsame
  rw [List.map_cons, List.nodup_cons] at hweb
  exact hweb.1 (List.mem_map.2 ⟨l', hl', Locale.web_eq_of_variantName hname⟩)

/-! ## A run on a folder that is there -/

/-- Making variants changes nothing but the files under their names. -/
theorem agreesOff_synthesizeAll (s : Synthesizer) (h : d.Opens (Path.beside source) p) (hplain : ∀ l ∈ ls, l.IsPlain) (log : Log) :
    AgreesOff (IsVariantPlace source p ls) d (s.synthesizeAll source ls d log).2.1 := by
  induction ls generalizing d log with
  | nil => exact .refl _ d
  | cons l ls ih =>
    have hfirst : AgreesOff (IsVariantPlace source p (l :: ls)) d (s.synthesize source l d log).2.1 :=
      agreesOff_synthesize h (hplain l List.mem_cons_self) (fun _ => ⟨l, List.mem_cons_self, rfl⟩) log
    have hrest := ih (hfirst.opens h) (fun l' hl' => hplain l' (List.mem_cons_of_mem _ hl')) (s.synthesize source l d log).2.2
    exact hfirst.trans (hrest.mono fun q ⟨l', hl', hq⟩ => ⟨l', List.mem_cons_of_mem _ hl', hq⟩)

/-- Every locale gets the result that it would have got first, and its variant becomes what it would have become. -/
theorem synthesizeAll_eq (h : d.Opens (Path.beside source) p) (hplain : ∀ l ∈ ls, l.IsPlain) (hweb : (ls.map Locale.web).Nodup)
    (log log' : Log) :
    (s.synthesizeAll source ls d log).1 = ls.map (fun l => (l, (s.synthesize source l d log').1)) ∧
      ∀ l ∈ ls, Disk.entry? (s.synthesizeAll source ls d log).2.1 (p ++ [l.variantName source]) =
        Disk.entry? (s.synthesize source l d log').2.1 (p ++ [l.variantName source]) := by
  induction ls generalizing d log with
  | nil => exact ⟨rfl, fun l hl => absurd hl List.not_mem_nil⟩
  | cons l ls ih =>
    obtain ⟨hl, hplain⟩ := List.forall_mem_cons.1 hplain
    have hother := ne_of_nodup_web source p hweb
    have hfirst : AgreesOff (· = p ++ [l.variantName source]) d (s.synthesize source l d log).2.1 := by
      refine agreesOff_synthesize h hl (fun _ => ?_) log
      rfl
    have hopens := hfirst.opens h
    obtain ⟨hresults, hentries⟩ := ih hopens hplain (List.nodup_cons.1 hweb).2 (s.synthesize source l d log).2.2
    have hlog := s.synthesize_log_congr source l d log log'
    -- the first variant is not under the name of another one
    have hrest : ∀ l' ∈ ls, (s.synthesize source l' (s.synthesize source l d log).2.1 log').1 = (s.synthesize source l' d log').1 ∧
        Disk.entry? (s.synthesize source l' (s.synthesize source l d log).2.1 log').2.1 (p ++ [l'.variantName source]) =
          Disk.entry? (s.synthesize source l' d log').2.1 (p ++ [l'.variantName source]) := by
      intro l' hl'
      have hentry := hfirst.entries _ (hother l' hl')
      obtain ⟨hresult, hput⟩ := synthesize_congr (s := s) h hopens (hplain l' hl') hentry log' log'
      exact ⟨hresult, hput.entry? (by simp) hentry⟩
    constructor
    · rw [List.map_cons, ← hlog.1]
      refine congrArg _ (hresults.trans (List.map_congr_left fun l' hl' => ?_))
      rw [(hrest l' hl').1]
    · refine List.forall_mem_cons.2 ⟨?_, fun l' hl' => (hentries l' hl').trans (hrest l' hl').2⟩
      have hagrees := s.agreesOff_synthesizeAll hopens hplain (s.synthesize source l d log).2.2
      rw [← hlog.2]
      exact hagrees.entries _ fun ⟨l', hl', hsame⟩ => hother l' hl' hsame.symm

/-- What has changed is a variant, and the path of the variant leads there. -/
theorem place_of_changed (h : d.Opens (Path.beside source) p) (hplain : ∀ l ∈ ls, l.IsPlain) (hweb : (ls.map Locale.web).Nodup)
    (log : Log) {q : Place} (hchanged : Disk.entry? (s.synthesizeAll source ls d log).2.1 q ≠ d.entry? q) :
    ∃ l ∈ ls, (s.synthesizeAll source ls d log).2.1.place (l.localizedPath source) = .ok q := by
  have hagrees := s.agreesOff_synthesizeAll h hplain log
  obtain ⟨l, hl, rfl⟩ : IsVariantPlace source p ls q := by
    by_contra hq
    exact hchanged (hagrees.entries q hq)
  have hname := (hplain l hl).isName_variantName source
  have hentry := (synthesizeAll_eq (s := s) h hplain hweb log log).2 l hl
  obtain hsame | ⟨content, hwrite⟩ := s.write_synthesize source l d log
  · rw [hentry, hsame] at hchanged
    exact absurd rfl hchanged
  · have hsingle : AgreesOff (IsVariantPlace source p ls) d (s.synthesize source l d log).2.1 :=
      agreesOff_synthesize h (hplain l hl) (fun _ => ⟨l, hl, rfl⟩) log
    obtain ⟨q, -, -, -, hplace⟩ := place_write hwrite
    refine ⟨l, hl, ?_⟩
    rw [Locale.localizedPath_eq] at hplace ⊢
    rw [place_congr_of_entry (hsingle.opens h) (hagrees.opens h) hname hentry, hplace,
      eq_of_place_join (hsingle.opens h) hname hplace]

/-- What is read of a variant after all were made is what is read of it after it was made first. -/
theorem read_synthesizeAll (h : d.Opens (Path.beside source) p) (hplain : ∀ l ∈ ls, l.IsPlain) (hweb : (ls.map Locale.web).Nodup)
    (log : Log) (hl : l ∈ ls) : (s.synthesizeAll source ls d log).2.1.read (l.localizedPath source) =
      (s.synthesize source l d log).2.1.read (l.localizedPath source) := by
  have hall := (s.agreesOff_synthesizeAll h hplain log).opens h
  have hsingle : AgreesOff (IsVariantPlace source p ls) d (s.synthesize source l d log).2.1 :=
    agreesOff_synthesize h (hplain l hl) (fun _ => ⟨l, hl, rfl⟩) log
  rw [Locale.localizedPath_eq]
  exact read_congr_of_entry (hsingle.opens h) hall ((hplain l hl).isName_variantName source)
    ((synthesizeAll_eq h hplain hweb log log).2 l hl)

/-! ## A run on a folder that is not there -/

/-- Where the folder of the page cannot be opened, every locale gets the result that it would have got first, and nothing is made. -/
theorem synthesizeAll_of_not_opens (h : ∀ p, ¬d.Opens (Path.beside source) p) (hplain : ∀ l ∈ ls, l.IsPlain) (log log' : Log) :
    (s.synthesizeAll source ls d log).1 = ls.map (fun l => (l, (s.synthesize source l d log').1)) ∧
      (s.synthesizeAll source ls d log).2.1 = d := by
  induction ls generalizing log with
  | nil => exact ⟨rfl, rfl⟩
  | cons l ls ih =>
    obtain ⟨hl, hplain⟩ := List.forall_mem_cons.1 hplain
    have hsame : (s.synthesize source l d log).2.1 = d := synthesize_of_not_opens h hl log
    obtain ⟨hresults, hdisk⟩ := ih hplain (s.synthesize source l d log).2.2
    have hrun : s.synthesizeAll source (l :: ls) d log =
        ((l, (s.synthesize source l d log).1) :: (s.synthesizeAll source ls d (s.synthesize source l d log).2.2).1,
          (s.synthesizeAll source ls d (s.synthesize source l d log).2.2).2) := by
      rw [synthesizeAll]
      dsimp only
      rw [hsame]
    rw [hrun]
    exact ⟨by rw [List.map_cons, hresults, (s.synthesize_log_congr source l d log log').1], hdisk⟩

/-! ## What was there before -/

/-- A variant that may be replaced is no folder. -/
theorem isFolderAt_of_mayReplace (h : d.Opens (Path.beside source) p) (hl : l.IsPlain) (hmay : MayReplace d (l.localizedPath source))
    (hfault : fault? (l.localizedPath source) = none) : d.isFolderAt (p ++ [l.variantName source]) = false := by
  have hname := hl.isName_variantName source
  rw [Locale.localizedPath_eq] at hmay hfault
  rw [isFolderAt]
  unfold MayReplace existing? at hmay
  rw [has, find?_join hname h.spells h.folder, Document.load, readText, read_join hname h.spells h.folder, hfault] at hmay
  cases hentry : d.entry? (p ++ [l.variantName source]) with
  | none => rfl
  | some e =>
    cases e with
    | file content executable => rfl
    | folder writable =>
      rw [hentry] at hmay
      obtain hmay | ⟨page, hmay, -⟩ := hmay <;> simp [Except.map] at hmay

/-- What is made of a variant that may be replaced is the template, localized. -/
theorem synthesize_of_mayReplace (hmay : MayReplace d (l.localizedPath source)) (log : Log) :
    (s.synthesize source l d log).2.1 =
      ((d.write (l.localizedPath source)
        (.text (s.localized l (s.fresh (l.localizedPath source)) log).1.toHtml)).toOption).getD d := by
  obtain ⟨existing, hexisting, hchosen⟩ : ∃ existing, existing? d (l.localizedPath source) = .ok existing ∧
      s.choose (l.localizedPath source) existing = some (s.fresh (l.localizedPath source), .replaced) := by
    obtain hmay | ⟨page, hmay, hmode⟩ := hmay
    · exact ⟨none, hmay, rfl⟩
    · exact ⟨some page, hmay, choose_eq_some_iff.2 (Or.inl ⟨hmode, rfl, rfl⟩)⟩
  have hsame := (s.localized_congr l (s.fresh (l.localizedPath source))
    (log.info (report (l.localizedPath source) l .replaced)) log).1
  simp only [synthesize, hexisting, hchosen, hsame, Document.save]
  cases d.write (l.localizedPath source) (.text (s.localized l (s.fresh (l.localizedPath source)) log).1.toHtml) <;> rfl

/-- What is read of a variant that may be replaced, after it was made, is the template, localized, where it could be written. -/
theorem toOption_read_of_mayReplace (h : d.Opens (Path.beside source) p) (hl : l.IsPlain)
    (hmay : MayReplace d (l.localizedPath source)) (log : Log) :
    ((s.synthesize source l d log).2.1.read (l.localizedPath source)).toOption =
      if fault? (l.localizedPath source) = none ∧
          (missing (l.variantName source) = .notFound ∨ (d.entry? (p ++ [l.variantName source])).isNone = false) then
        some (.text (s.localized l (s.fresh (l.localizedPath source)) log).1.toHtml)
      else none := by
  have hname := hl.isName_variantName source
  have hno := isFolderAt_of_mayReplace h hl hmay
  rw [synthesize_of_mayReplace hmay]
  generalize (s.localized l (s.fresh (l.localizedPath source)) log).1.toHtml = text
  rw [Locale.localizedPath_eq] at hno ⊢
  have hwrites := exists_write_iff h hname hno (.text text)
  cases hwrite : d.write (Path.join (Path.beside source) (l.variantName source)) (.text text) with
  | ok d' =>
    rw [if_pos (hwrites.1 ⟨d', hwrite⟩)]
    exact congrArg Except.toOption (read_write hwrite)
  | error e =>
    have hnot := mt hwrites.2 (by simp [hwrite])
    rw [if_neg hnot]
    show (d.read _).toOption = none
    rw [toOption_read_join hname h.spells h.folder]
    split
    · rfl
    · rename_i hfault
      refine contentAt?_eq_none ?_
      by_contra hthere
      exact hnot ⟨by simpa using hfault, Or.inr (Option.isNone_eq_false_iff.2 (Option.isSome_iff_ne_none.2 hthere))⟩

/-- Variants that may be replaced are read as the same after they were made, when under a name that is too long something was on both
disks or on none. -/
theorem read_congr_of_mayReplace (h : d.Opens (Path.beside source) p) (h' : d'.Opens (Path.beside source) p) (hl : l.IsPlain)
    (hmay : MayReplace d (l.localizedPath source)) (hmay' : MayReplace d' (l.localizedPath source))
    (hthere : missing (l.variantName source) ≠ .notFound →
      (d'.entry? (p ++ [l.variantName source])).isNone = (d.entry? (p ++ [l.variantName source])).isNone) (log log' : Log) :
    ((s.synthesize source l d' log').2.1.read (l.localizedPath source)).toOption =
      ((s.synthesize source l d log).2.1.read (l.localizedPath source)).toOption := by
  rw [toOption_read_of_mayReplace h hl hmay, toOption_read_of_mayReplace h' hl hmay',
    (s.localized_congr l (s.fresh (l.localizedPath source)) log' log).1]
  by_cases hmissing : missing (l.variantName source) = .notFound
  · simp only [hmissing, true_or]
  · simp only [hthere hmissing]

/-- Whether a disk has come of another one by writing files to some paths. -/
def Rewritten (paths : List Text) : Disk → Disk → Prop :=
  Relation.ReflTransGen fun d d' => ∃ path ∈ paths, ∃ content, d.write path content = .ok d'

/-- Disks on which the variants were written differ in the variants only. Under a name that is too long, something is on both or on
none. -/
theorem agreesOff_of_rewritten (h : d.Opens (Path.beside source) p) (hplain : ∀ l ∈ ls, l.IsPlain)
    (hwritten : Rewritten (ls.map (·.localizedPath source)) d d') :
    AgreesOff (IsVariantPlace source p ls) d d' ∧ ∀ l ∈ ls, missing (l.variantName source) ≠ .notFound →
      (d'.entry? (p ++ [l.variantName source])).isNone = (d.entry? (p ++ [l.variantName source])).isNone := by
  induction hwritten with
  | refl => exact ⟨.refl _ d, fun _ _ _ => rfl⟩
  | tail _ hstep ih =>
    obtain ⟨hagrees, hthere⟩ := ih
    obtain ⟨path, hpath, content, hwrite⟩ := hstep
    obtain ⟨l', hl', rfl⟩ := List.mem_map.1 hpath
    have hopens := hagrees.opens h
    have hname := (hplain l' hl').isName_variantName source
    rw [Locale.localizedPath_eq] at hwrite
    refine ⟨hagrees.trans (agreesOff_write hopens hname (fun _ => ⟨l', hl', rfl⟩) hwrite), fun l hl hmissing => ?_⟩
    rw [← hthere l hl hmissing]
    by_cases hsame : l'.variantName source = l.variantName source
    · exact isNone_entry?_of_write hopens hname (hsame ▸ hmissing) hwrite _
    · have hone : AgreesOff (· = p ++ [l'.variantName source]) _ _ := agreesOff_write hopens hname (fun _ => by rfl) hwrite
      rw [hone.entries _ (by simpa using Ne.symm hsame)]

/-- Nothing is written to the variants where the folder of the page cannot be opened. -/
theorem eq_of_rewritten (h : ∀ p, ¬d.Opens (Path.beside source) p) (hplain : ∀ l ∈ ls, l.IsPlain)
    (hwritten : Rewritten (ls.map (·.localizedPath source)) d d') : d' = d := by
  induction hwritten with
  | refl => rfl
  | tail _ hstep ih =>
    subst ih
    obtain ⟨path, hpath, content, hwrite⟩ := hstep
    obtain ⟨l, hl, rfl⟩ := List.mem_map.1 hpath
    obtain ⟨e, he⟩ := (write_of_not_opens h ((hplain l hl).isName_variantName source)).2 content
    rw [Locale.localizedPath_eq, he] at hwrite
    cases hwrite

/-! ## Any order -/

/-- The locales do not influence each other, and a variant that is made from the template does not depend on what it replaces. In
every order each locale gets the same result, and every file becomes the same; only variants change; and where a variant is missing
or may be replaced, it becomes the same whatever the variants were before. -/
theorem synthesizeAll_of_perm (s : Synthesizer) (source : Text) (hparsed : ∀ l ∈ ls, ∃ value, Locale.parse value = .ok l)
    (hweb : (ls.map Locale.web).Nodup) (hperm : ls'.Perm ls) (d : Disk) (log log' : Log) :
    (s.synthesizeAll source ls' d log').1.Perm (s.synthesizeAll source ls d log).1 ∧
      (∀ q, Disk.entry? (s.synthesizeAll source ls' d log').2.1 q = Disk.entry? (s.synthesizeAll source ls d log).2.1 q) ∧
      (∀ q, Disk.entry? (s.synthesizeAll source ls d log).2.1 q ≠ d.entry? q →
        ∃ l ∈ ls, (s.synthesizeAll source ls d log).2.1.place (l.localizedPath source) = .ok q) ∧
      ∀ d', Rewritten (ls.map (·.localizedPath source)) d d' → ∀ l ∈ ls, MayReplace d (l.localizedPath source) →
        MayReplace d' (l.localizedPath source) →
        ((s.synthesizeAll source ls d' log').2.1.read (l.localizedPath source)).toOption =
          ((s.synthesizeAll source ls d log).2.1.read (l.localizedPath source)).toOption := by
  have hplain : ∀ l ∈ ls, l.IsPlain := fun l hl => (hparsed l hl).elim fun _ => Locale.isPlain_of_parse
  have hplain' : ∀ l ∈ ls', l.IsPlain := fun l hl => hplain l (hperm.mem_iff.1 hl)
  have hweb' : (ls'.map Locale.web).Nodup := (hperm.map Locale.web).nodup_iff.2 hweb
  by_cases hopens : ∃ p, d.Opens (Path.beside source) p
  · obtain ⟨p, h⟩ := hopens
    obtain ⟨hresults, hentries⟩ := synthesizeAll_eq (s := s) h hplain hweb log log
    obtain ⟨hresults', hentries'⟩ := synthesizeAll_eq (s := s) h hplain' hweb' log' log
    have hagrees := s.agreesOff_synthesizeAll h hplain log
    have hagrees' := s.agreesOff_synthesizeAll h hplain' log'
    refine ⟨?_, fun q => ?_, fun q hchanged => ?_, fun d' hwritten l hl hmay hmay' => ?_⟩
    · rw [hresults, hresults']
      exact hperm.map _
    · by_cases hq : IsVariantPlace source p ls q
      · obtain ⟨l, hl, rfl⟩ := hq
        rw [hentries l hl, hentries' l (hperm.mem_iff.2 hl)]
      · rw [hagrees.entries q hq, hagrees'.entries q fun ⟨l, hl, hsame⟩ => hq ⟨l, hperm.mem_iff.1 hl, hsame⟩]
    · exact place_of_changed h hplain hweb log hchanged
    · obtain ⟨hdiffer, hthere⟩ := agreesOff_of_rewritten h hplain hwritten
      have h' := hdiffer.opens h
      rw [read_synthesizeAll h hplain hweb log hl, read_synthesizeAll h' hplain hweb log' hl]
      exact read_congr_of_mayReplace h h' (hplain l hl) hmay hmay' (hthere l hl) log log'
  · have h : ∀ p, ¬d.Opens (Path.beside source) p := fun p hp => hopens ⟨p, hp⟩
    obtain ⟨hresults, hdisk⟩ := synthesizeAll_of_not_opens (s := s) h hplain log log
    obtain ⟨hresults', hdisk'⟩ := synthesizeAll_of_not_opens (s := s) h hplain' log' log
    rw [hdisk, hdisk', hresults, hresults']
    refine ⟨hperm.map _, fun _ => rfl, fun q hchanged => absurd rfl hchanged, fun d' hwritten l hl _ _ => ?_⟩
    rw [eq_of_rewritten h hplain hwritten, (synthesizeAll_of_not_opens h hplain log' log).2]

namespace TwoLocalesWitness

/-- What makes variants of a page with one text, with a catalog that has no text. -/
def synthesizer : Synthesizer :=
  ⟨fun _ canonical _ => canonical, "gettext", "app",
    (Template.build ⟨"gettext", true⟩ "app" (.parse "<p gettext=\".\">Hello</p>") .empty).1⟩

def czech : Locale := ⟨"cs", none, "CZ", [], none⟩

def german : Locale := ⟨"de", none, "DE", [], none⟩

/-- A folder with a Czech variant that may be replaced and a German one of its own. -/
def disk : Disk :=
  ⟨[(["p"], .folder true), (["p", "index.cs-CZ.html"], .file (.text "<meta name=gettext content=replace>") false),
    (["p", "index.de-DE.html"], .file (.text "<meta name=gettext content=cherry-pick><p gettext=.>Hello") false)], ["p"]⟩

end TwoLocalesWitness

open TwoLocalesWitness in
/-- The German variant is cherry-picked and the Czech one replaced, whichever is made first. -/
theorem synthesizeAll_of_perm_german :
    (∀ l ∈ [czech, german], ∃ value, Locale.parse value = .ok l) ∧ ([czech, german].map Locale.web).Nodup ∧
      (synthesizer.synthesizeAll "index.html" [german, czech] disk .empty).1.Perm
        [(czech, .ok .replaced), (german, .ok .cherryPicked)] ∧
      ∀ q, Disk.entry? (synthesizer.synthesizeAll "index.html" [german, czech] disk .empty).2.1 q =
        Disk.entry? (synthesizer.synthesizeAll "index.html" [czech, german] disk .empty).2.1 q := by
  have hparsed : ∀ l ∈ [czech, german], ∃ value, Locale.parse value = .ok l := by
    simp only [List.forall_mem_cons]
    exact ⟨⟨"cs_CZ", by decide⟩, ⟨"de_DE", by decide⟩, fun _ h => absurd h List.not_mem_nil⟩
  have hweb : ([czech, german].map Locale.web).Nodup := by decide
  have hresults : (synthesizer.synthesizeAll "index.html" [czech, german] disk .empty).1 =
      [(czech, .ok .replaced), (german, .ok .cherryPicked)] := by decide +kernel
  obtain ⟨hperm, hentries, -⟩ :=
    synthesizeAll_of_perm synthesizer "index.html" hparsed hweb (List.Perm.swap czech german []) disk .empty .empty
  exact ⟨hparsed, hweb, hresults ▸ hperm, hentries⟩

end Synthesizer

end LocalePages
