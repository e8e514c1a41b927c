import LocalePages.Page.Storage
import LocalePages.Page.Localization

/-!
# Synthesis

The variant of a source page for a locale is a file beside it. What happens to it depends on its mode. One that is missing or says
it may be replaced is made from the template. One that says it is cherry-picked keeps its own content, and only its annotated
texts are localized again. Any other one belongs to somebody else and is left alone.
-/

namespace LocalePages

/-- What became of the variant of a page. -/
inductive Synthesis where
  | replaced
  | cherryPicked
  | skipped
  deriving DecidableEq, Repr

/-- What makes variants: the catalogs, the attribute that marks texts, the domain of tags without one, and the template. -/
structure Synthesizer where
  lookup : CatalogLookup
  mark : Text
  domain : Text
  template : Template

/-- The variant of a page for the selected locale, or the page itself when there is no such file. -/
def Locales.variantOf (ls : Locales) (d : Disk) (path : Text) : Text :=
  let variant := ls.selected.localizedPath path
  if d.isFile variant then variant else path

namespace Synthesizer

/-- A page from the template, which may be replaced the next time. -/
def fresh (s : Synthesizer) (target : Text) : Document := (s.template.document.copy.withPath target).setMode .replace

/-- The page to localize and what it will have become; none for a file that is left alone. -/
def choose (s : Synthesizer) (target : Text) : Option Document → Option (Document × Synthesis)
  | none => some (s.fresh target, .replaced)
  | some existing =>
    match existing.mode with
    | some .replace => some (s.fresh target, .replaced)
    | some .cherryPick => some (existing, .cherryPicked)
    | _ => none

/-- What is chosen where there is a page: the template for one that may be replaced, the page itself for a cherry-picked one. -/
theorem choose_eq_some_iff {s : Synthesizer} {target : Text} {existing page : Document} {made : Synthesis} :
    s.choose target (some existing) = some (page, made) ↔
      (existing.mode = some .replace ∧ page = s.fresh target ∧ made = .replaced) ∨
        (existing.mode = some .cherryPick ∧ page = existing ∧ made = .cherryPicked) := by
  unfold choose
  dsimp only
  split
  · rename_i hmode
    simp [hmode, eq_comm]
  · rename_i hmode
    simp [hmode, eq_comm]
  · rename_i hreplace hcherry
    exact ⟨nofun, fun h => h.elim (fun h => absurd h.1 hreplace) fun h => absurd h.1 hcherry⟩

/-- What the log says of a variant that is made. -/
def report (target : Text) (locale : Locale) (made : Synthesis) : Text :=
  let verb : Text := match made with
    | .cherryPicked => "Cherry-picking"
    | _ => "Generating"
  verb ++ " " ++ target ++ " (" ++ locale.tag ++ ")"

/-- What the log says of a file that is left alone. -/
def refusal (target : Text) (existing : Document) : Text :=
  target ++ ": invalid mode marker " ++ quoted (existing.modeMarker.getD []) ++
    ", expected <meta name=\"gettext\" content=\"replace\"/> or <meta name=\"gettext\" content=\"cherry-pick\"/>"

/-- Localizes a page for a locale with the dictionary of the template. -/
def localized (s : Synthesizer) (locale : Locale) (page : Document) (log : Log) : Document × Log :=
  let (page, p) := Localization.localize ⟨s.mark, true⟩ s.lookup s.domain locale page s.template.dictionary log
  (page, p.log)

/-- The file at a path as a page, if there is one. -/
def existing? (d : Disk) (path : Text) : Except PageError (Option Document) :=
  if d.has path then (Document.load d path).map some else .ok none

/-- Makes the variant of a source page for a locale. -/
def synthesize (s : Synthesizer) (source : Text) (locale : Locale) (d : Disk) (log : Log) :
    Except PageError Synthesis × Disk × Log :=
  let target := locale.localizedPath source
  match existing? d target with
  | .error e => (.error e, d, log)
  | .ok existing =>
    match s.choose target existing with
    | none => (.ok .skipped, d, (existing.map (refusal target)).elim log log.error)
    | some (page, made) =>
      let (page, log) := s.localized locale page (log.info (report target locale made))
      match page.save d target with
      | .ok d => (.ok made, d, log)
      | .error e => (.error e, d, log)

end Synthesizer

end LocalePages
