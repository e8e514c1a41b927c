import LocalePages.Proofs.Paths
import LocalePages.Proofs.Writing
import LocalePages.Run.Compilation
import Mathlib.Data.List.Basic

/-!
# Authored pages stay

A page belongs to its author unless it says that it may be replaced or is cherry-picked: source pages, pages without a mode, with a
mode that cannot be read, and files that hold no text. Compilation leaves the authored pages of a project as they are
(`Compilation.contentAt?_run`), whatever its modules, its locales and the order in which they come, provided that the tools touch
no page. Each step keeps the authored pages (`Disk.KeepsAuthored`), also a step that writes a page: what it writes to is a file
that is not there, or one that was found to be no authored page just before.
-/

namespace LocalePages

/-- Whether a place is that of a page: its name ends in `.html`. -/
def Place.IsPage (p : Place) : Prop := ∃ name, p.getLast? = some name ∧ Text.endsWith name ".html" = true

/-- Whether a file holds a page that is to be replaced or cherry-picked. -/
def FileContent.isGenerated : FileContent → Bool
  | .text t => (Document.parse t).mode == some .replace || (Document.parse t).mode == some .cherryPick
  | .bytes _ => false

/-- A later disk has the authored pages of an earlier one, as they were. -/
def Disk.KeepsAuthored (d d' : Disk) : Prop :=
  ∀ p content, p.IsPage → content.isGenerated = false → d.contentAt? p = some content → d'.contentAt? p = some content

/-- The tools leave the pages that are there as they are. -/
def Toolbox.KeepsPages (tools : Toolbox) : Prop :=
  ∀ d call p content, p.IsPage → d.contentAt? p = some content → (tools.run d call).2.contentAt? p = some content

namespace Disk

variable {d d' d'' : Disk} {path : Text}

/-! ## Writing -/

theorem KeepsAuthored.refl (d : Disk) : d.KeepsAuthored d := fun _ _ _ _ h => h

theorem KeepsAuthored.trans (h : d.KeepsAuthored d') (h' : d'.KeepsAuthored d'') : d.KeepsAuthored d'' :=
  fun p content hp hown hc => h' p content hp hown (h p content hp hown hc)

/-- Steps that each keep the authored pages keep them together. -/
theorem keepsAuthored_foldl {σ α : Type} (disk : σ → Disk) {step : σ → α → σ}
    (h : ∀ s a, (disk s).KeepsAuthored (disk (step s a))) (steps : List α) (s : σ) :
    (disk s).KeepsAuthored (disk (steps.foldl step s)) := by
  induction steps generalizing s with
  | nil => exact KeepsAuthored.refl _
  | cons a rest ih => exact (h s a).trans (ih (step s a))

/-- A write keeps the authored pages when the page that its path leads to, if there is one, is not authored. -/
theorem keepsAuthored_write {new : FileContent}
    (hown : ∀ p old, d.place path = .ok p → p.IsPage → d.contentAt? p = some old → old.isGenerated = true)
    (h : d.write path new = .ok d') : d.KeepsAuthored d' := by
  obtain ⟨p, executable, hp, rfl, hplace⟩ := write_cases h
  intro q content hq hauthored hcontent
  rw [contentAt?_put_file d new executable q hp]
  split
  · rename_i hpq
    subst hpq
    -- nothing authored can be at the place of the write
    rcases hplace with ⟨hplace, -⟩ | ⟨-, -, hnone⟩
    · rw [hown p content hplace hq hcontent] at hauthored
      cases hauthored
    · rw [contentAt?_eq_none hnone] at hcontent
      cases hcontent
  · exact hcontent

/-- Writing to a path that leads nowhere keeps the authored pages. -/
theorem keepsAuthored_write_missing {new : FileContent} (hmissing : d.has path = false) (h : d.write path new = .ok d') :
    d.KeepsAuthored d' := by
  refine keepsAuthored_write (fun p old hplace _ hold => ?_) h
  obtain ⟨executable, hentry⟩ := contentAt?_eq_some_iff.1 hold
  simp [has, find?, hplace, hentry] at hmissing

/-- Making a folder keeps the authored pages. -/
theorem keepsAuthored_createFolder (h : d.createFolder path = .ok d') : d.KeepsAuthored d' := by
  intro p content _ _ hcontent
  rw [contentAt?_createFolder h, hcontent]

end Disk

/-- The path of a message map leads to no page. -/
theorem not_isPage_of_json {d : Disk} {folder name : Text} {p : Place} (h : d.place (Path.join folder (name ++ ".json")) = .ok p) :
    ¬p.IsPage := by
  have hslash : '/' ∉ (".json" : Text) := by decide
  obtain ⟨start, hlast⟩ := Path.exists_getLast?_segments_join folder name hslash
  have hn : List.getLast? (start ++ ".json".toList) = some 'n' := by simp
  obtain ⟨hidle, hup⟩ := Path.isName_of_getLast? hn (by decide)
  rintro ⟨last, hp, hpage⟩
  rw [Disk.getLast?_of_place hlast hidle hup h] at hp
  cases hp
  obtain ⟨before, hbefore⟩ := List.isSuffixOf_iff_suffix.1 hpage
  have hl : List.getLast? (start ++ ".json".toList) = some 'l' := by rw [← hbefore]; simp
  rw [hn] at hl
  cases hl

/-! ## Setting a module up -/

namespace CatalogModule

variable {d d' : Disk}

/-- Writing a file that is missing keeps the authored pages. -/
theorem keepsAuthored_writeMissing {path content : Text} (h : writeMissing d path content = .ok d') : d.KeepsAuthored d' := by
  unfold writeMissing at h
  split at h
  · cases h
    exact Disk.KeepsAuthored.refl d
  · rename_i hmissing
    split at h
    · rename_i hwrite
      cases h
      exact Disk.keepsAuthored_write_missing (by simpa using hmissing) hwrite
    · cases h

/-- Making the files that are missing in a locale folder keeps the authored pages. -/
theorem keepsAuthored_makeFiles {localeFolder : Text} {supported : Locales} (h : makeFiles d localeFolder supported = .ok d') :
    d.KeepsAuthored d' := by
  unfold makeFiles at h
  split at h
  · cases h
  · rename_i htemplate
    exact (keepsAuthored_writeMissing htemplate).trans (keepsAuthored_writeMissing h)

/-- Setting a module up keeps the authored pages. -/
theorem keepsAuthored_setup (d : Disk) (hasTool : Text → Bool) (path name : Text) (supported : Locales) (tools : List Text)
    (log : Log) : d.KeepsAuthored (setup d hasTool path name supported tools log).2.1 := by
  unfold setup
  split
  · exact Disk.KeepsAuthored.refl d
  · dsimp only
    split
    · exact Disk.KeepsAuthored.refl d
    · rename_i hfiles
      split
      · exact keepsAuthored_makeFiles hfiles
      · exact keepsAuthored_makeFiles hfiles

end CatalogModule

namespace Run

/-- Setting a module up in a run keeps the authored pages. -/
theorem keepsAuthored_setUp (s : RunSetting) (r : Run) (path name : Text) (tools : List Text) :
    r.disk.KeepsAuthored (r.setUp s path name tools).2.disk := by
  have hsetup := CatalogModule.keepsAuthored_setup r.disk (s.tools.has r.disk) path name s.locales tools r.log
  unfold setUp
  dsimp only
  split
  · exact Disk.KeepsAuthored.refl r.disk
  · split <;> exact hsetup

/-- Calling a tool that touches no page keeps the authored ones. -/
theorem keepsAuthored_call {s : RunSetting} (htools : s.tools.KeepsPages) (r : Run) (c : ToolCall) :
    r.disk.KeepsAuthored (r.call s c).2.disk := by
  have htool : r.disk.KeepsAuthored (s.tools.run r.disk c).2 := fun p content hp _ hc => htools r.disk c p content hp hc
  unfold call
  dsimp only
  split
  · exact htool
  · split <;> exact htool

end Run

/-! ## Making variants -/

namespace Synthesizer

/-- What is at a path is a page that may be written when it is chosen to be made. -/
theorem isGenerated_of_choose {s : Synthesizer} {d : Disk} {target : Text} {existing : Option Document}
    {chosen : Document × Synthesis} (hexisting : existing? d target = .ok existing)
    (hchosen : s.choose target existing = some chosen)
    {p : Place} {old : FileContent} (hplace : d.place target = .ok p) (hold : d.contentAt? p = some old) :
    old.isGenerated = true := by
  obtain ⟨executable, hentry⟩ := Disk.contentAt?_eq_some_iff.1 hold
  have hhas : d.has target = true := by simp [Disk.has, Disk.find?, hplace, hentry]
  simp only [existing?, hhas, if_true, Document.load, Disk.readText, Disk.read, hplace, hentry] at hexisting
  cases old with
  | bytes b => cases hexisting
  | text t =>
    cases hexisting
    have hmode : ((Document.parse t).withPath target).mode = (Document.parse t).mode := rfl
    obtain ⟨page, made⟩ := chosen
    obtain ⟨hreplace, -⟩ | ⟨hcherry, -⟩ := choose_eq_some_iff.1 hchosen
    · rw [hmode] at hreplace
      simp [FileContent.isGenerated, hreplace]
    · rw [hmode] at hcherry
      simp [FileContent.isGenerated, hcherry]

/-- Making a variant keeps the authored pages. -/
theorem keepsAuthored_synthesize (s : Synthesizer) (source : Text) (locale : Locale) (d : Disk) (log : Log) :
    d.KeepsAuthored (s.synthesize source locale d log).2.1 := by
  unfold synthesize
  dsimp only
  split
  · exact Disk.KeepsAuthored.refl d
  · rename_i existing hexisting
    split
    · exact Disk.KeepsAuthored.refl d
    · rename_i page made hchosen
      split
      · rename_i hsave
        have hwrite := Document.save_eq_ok_iff.1 hsave
        exact Disk.keepsAuthored_write (fun p old hplace _ hold => isGenerated_of_choose hexisting hchosen hplace hold) hwrite
      · exact Disk.KeepsAuthored.refl d

end Synthesizer

/-! ## The steps of a run -/

namespace Compilation

variable {s : RunSetting}

/-- Reviewing a catalog keeps the disk. -/
theorem disk_reviewCatalog (catalog : Text) (r : Run) : (reviewCatalog catalog r).disk = r.disk := by
  unfold reviewCatalog
  split
  · rfl
  · split <;> rfl

/-- Compiling a catalog keeps the authored pages. -/
theorem keepsAuthored_compileCatalog (htools : s.tools.KeepsPages) (m : CatalogModule) (r : Run) (l : Locale) :
    r.disk.KeepsAuthored (compileCatalog s m r l).disk := by
  unfold compileCatalog
  dsimp only
  split
  · exact Disk.KeepsAuthored.refl r.disk
  · split
    · exact Disk.KeepsAuthored.refl r.disk
    · rename_i folders hfolders
      have hmade := Disk.keepsAuthored_createFolder hfolders
      have hcall := Run.keepsAuthored_call htools { r with disk := folders }
        ⟨s.config.tools.msgfmt, [m.catalogFile l, "--strict", "-o", m.compiledFile l], none⟩
      generalize Run.call s { r with disk := folders } _ = called at hcall ⊢
      obtain ⟨output, after⟩ := called
      rw [disk_reviewCatalog]
      cases output <;> dsimp only <;> split <;> exact hmade.trans hcall

/-- Making the variant of a page for a locale keeps the authored pages. -/
theorem keepsAuthored_localizePage (y : Synthesizer) (file : Text) (r : Run) (l : Locale) :
    r.disk.KeepsAuthored (localizePage y file r l).disk := by
  have hmade := y.keepsAuthored_synthesize file l r.disk r.log
  unfold localizePage
  dsimp only
  split <;> exact hmade

/-- Making the variants of a page keeps the authored pages. -/
theorem keepsAuthored_localizeFile (s : RunSetting) (m : CatalogModule) (lookup : CatalogLookup) (r : Run) (file : Text) :
    r.disk.KeepsAuthored (localizeFile s m lookup r file).disk := by
  unfold localizeFile
  split
  · exact Disk.KeepsAuthored.refl r.disk
  · rename_i page _
    dsimp only
    split
    · exact Disk.KeepsAuthored.refl r.disk
    · let built := Template.build ⟨s.config.markupAttribute, true⟩ m.name page r.log
      exact Disk.keepsAuthored_foldl Run.disk
        (keepsAuthored_localizePage ⟨lookup, s.config.markupAttribute, m.name, built.1⟩ file) s.locales.targets
        { r with log := built.2 }

/-- Compiling a module keeps the authored pages. -/
theorem keepsAuthored_compileModule (htools : s.tools.KeepsPages) (modules : ModuleSet) (m : CatalogModule) (r : Run) :
    r.disk.KeepsAuthored (compileModule s modules m r).disk := by
  have hcatalogs := Disk.keepsAuthored_foldl Run.disk (keepsAuthored_compileCatalog htools m) m.locales
    (r.info ("Compiling gettext strings in " ++ m.path ++ " for locales: " ++ m.localeNames))
  exact hcatalogs.trans (Disk.keepsAuthored_foldl Run.disk (keepsAuthored_localizeFile s m _) _ _)

/-- Writing a message map keeps the authored pages. -/
theorem keepsAuthored_writeMap {d d' : Disk} {merged folder name : Text}
    (h : writeMap d merged (Path.join folder (name ++ ".json")) = .ok d') : d.KeepsAuthored d' := by
  unfold writeMap at h
  split at h
  · cases h
  · dsimp only at h
    split at h
    · cases h
    · rename_i hfolder
      split at h
      · cases h
      · rename_i hwrite
        cases h
        refine (Disk.keepsAuthored_createFolder hfolder).trans (Disk.keepsAuthored_write (fun p old hplace hpage _ => ?_) hwrite)
        exact absurd hpage (not_isPage_of_json hplace)

/-- Writing the message map of a locale keeps the authored pages. -/
theorem keepsAuthored_compileMap (htools : s.tools.KeepsPages) (m : CatalogModule) (folder template : Text) (r : Run) (l : Locale) :
    r.disk.KeepsAuthored (compileMap s m folder template r l).disk := by
  unfold compileMap
  dsimp only
  split
  · exact Disk.KeepsAuthored.refl r.disk
  · have hcall := Run.keepsAuthored_call htools r
      ⟨s.config.tools.msgmerge, ["--no-fuzzy-matching", m.catalogFile l, template], none⟩
    split
    · rename_i hcalled
      rw [hcalled] at hcall
      exact hcall
    · rename_i hcalled
      rw [hcalled] at hcall
      split
      · exact hcall
      · rename_i hmap
        exact hcall.trans (keepsAuthored_writeMap hmap)

/-- Compiling the scripts of a module keeps the authored pages. -/
theorem keepsAuthored_compileDistribution (htools : s.tools.KeepsPages) (m : CatalogModule) (r : Run) :
    r.disk.KeepsAuthored (compileDistribution s m r).disk := by
  unfold compileDistribution
  dsimp only
  split
  · exact Disk.KeepsAuthored.refl r.disk
  · exact Disk.keepsAuthored_foldl Run.disk (keepsAuthored_compileMap htools m _ _) m.locales r

/-- Compiling the module at a path keeps the authored pages. -/
theorem keepsAuthored_compilePath (htools : s.tools.KeepsPages) (modules : ModuleSet) (progress : RunSummary × Run) (path : Text) :
    progress.2.disk.KeepsAuthored (compilePath s modules progress path).2.disk := by
  have hsetup := progress.2.keepsAuthored_setUp s path (moduleName path) [s.config.tools.msgfmt]
  unfold compilePath
  dsimp only
  split
  · rename_i hready
    rw [hready] at hsetup
    exact hsetup.trans (keepsAuthored_compileModule htools modules _ _)
  · rename_i hready
    rw [hready] at hsetup
    exact hsetup

/-- Compiling the scripts of the module at a path keeps the authored pages. -/
theorem keepsAuthored_compileScripts (htools : s.tools.KeepsPages) (progress : RunSummary × Run) (path : Text) :
    progress.2.disk.KeepsAuthored (compileScripts s progress path).2.disk := by
  have hsetup := progress.2.keepsAuthored_setUp s path (moduleName path) [s.config.tools.msgmerge]
  unfold compileScripts
  dsimp only
  split
  · exact Disk.KeepsAuthored.refl progress.2.disk
  · split
    · rename_i m after hready
      rw [hready] at hsetup
      exact hsetup.trans (keepsAuthored_compileDistribution htools m (after.info _))
    · rename_i hready
      rw [hready] at hsetup
      exact hsetup

/-- A run keeps the authored pages. -/
theorem keepsAuthored_run (htools : s.tools.KeepsPages) (only : Option Text) (r : Run) :
    r.disk.KeepsAuthored (run s only r).2.disk := by
  have hdisk : (r.modulePaths s).2.disk = r.disk := rfl
  unfold run
  dsimp only
  split
  · exact Disk.KeepsAuthored.refl r.disk
  · rename_i paths _
    rw [← hdisk]
    exact (Disk.keepsAuthored_foldl (fun progress : RunSummary × Run => progress.2.disk)
      (keepsAuthored_compilePath htools _) paths (⟨0, 0, 0⟩, (r.modulePaths s).2)).trans
      (Disk.keepsAuthored_foldl (fun progress : RunSummary × Run => progress.2.disk)
        (keepsAuthored_compileScripts htools) paths _)

/-- Whatever a run compiles, a page that is neither to be replaced nor cherry-picked, or that cannot be read as text, holds at the
end what it held at the start, provided that the tools leave pages as they are. -/
theorem contentAt?_run (s : RunSetting) (only : Option Text) (r : Run) (htools : s.tools.KeepsPages) {p : Place}
    {content : FileContent} (hpage : p.IsPage) (hauthored : content.isGenerated = false)
    (hcontent : r.disk.contentAt? p = some content) : (run s only r).2.disk.contentAt? p = some content :=
  keepsAuthored_run htools only r p content hpage hauthored hcontent

namespace CzechSourceWitness

/-- A source page. -/
def source : FileContent := .text "<meta name=\"gettext\" content=\"translate\"><p gettext=\".\">Hello</p>"

/-- A source page in Czech. -/
def czech : FileContent := .text "<meta name=\"gettext\" content=\"translate\"><p>Nazdar</p>"

/-- A module with both pages. The Czech one has the name of the other's variant. -/
def disk : Disk :=
  ⟨[(["p"], .folder true), (["p", "index.cs-CZ.html"], .file czech false), (["p", "index.html"], .file source false),
    (["p", "locale"], .folder true)], ["p"]⟩

/-- The locales of the project. -/
def locales : Locales :=
  ⟨[⟨"cs", none, "CZ", [], none⟩, ⟨"de", none, "DE", [], none⟩], 0, Locale.standard, by decide⟩

/-- A project whose tools do nothing. -/
def setting : RunSetting := ⟨⟨fun _ _ => true, fun d _ => (.ok ⟨some 0, [], []⟩, d)⟩, .default, "/p", locales, []⟩

/-- The tools leave the pages as they are. -/
theorem keepsPages : setting.tools.KeepsPages := fun _ _ _ _ _ h => h

end CzechSourceWitness

open CzechSourceWitness in
/-- The run of `CzechSourceWitness` leaves the Czech page as it is, although it is where the variant of the other one would be. -/
theorem contentAt?_run_czech :
    (Locale.localizedPath ⟨"cs", none, "CZ", [], none⟩ "/p/index.html") = ("/p/index.cs-CZ.html" : Text) ∧
      czech.isGenerated = false ∧ disk.contentAt? ["p", "index.cs-CZ.html"] = some czech ∧
      (run setting none (.start disk .empty)).2.disk.contentAt? ["p", "index.cs-CZ.html"] = some czech := by
  have hauthored : czech.isGenerated = false := by decide +kernel
  have hcontent : disk.contentAt? ["p", "index.cs-CZ.html"] = some czech := by decide +kernel
  have hpage : Place.IsPage ["p", "index.cs-CZ.html"] := ⟨"index.cs-CZ.html", rfl, by decide +kernel⟩
  exact ⟨by decide +kernel, hauthored, hcontent,
    contentAt?_run setting none (.start disk .empty) keepsPages hpage hauthored hcontent⟩

end Compilation

end LocalePages
