import LocalePages.Catalog.MessageMap
import LocalePages.Page.Synthesis
import LocalePages.Run.Basic

/-!
# Compilation

Compilation turns the catalogs of a module into what programs read, makes the variants of its source pages, and writes the message
maps of its scripts. Catalogs of all modules are looked in, since a tag can name the domain of another one. What goes wrong with a
catalog, a page or a locale is logged and does not keep the others from being made.
-/

namespace LocalePages

namespace Compilation

/-- What the log says of a catalog that is not there. -/
def notExtracted (path : Text) : Text := path ++ " not found. Run extraction first."

/-- What the log says of a catalog with guesses. -/
def fuzzyMessage (path : Text) (count : Nat) : Text :=
  path ++ " contains " ++ Text.ofNat count ++ " fuzzy translation(s). Review the translations marked with 'fuzzy' " ++
    "and remove the 'fuzzy' flag from the ones that are correct."

/-- Logs the guesses of a catalog, or why it cannot be read. -/
def reviewCatalog (catalog : Text) (r : Run) : Run :=
  match Catalog.load r.disk catalog with
  | .error e => r.error e.message
  | .ok c => if c.fuzzyMessages.isEmpty then r else r.error (fuzzyMessage catalog c.fuzzyMessages.length)

/-- Compiles the catalog of a locale. -/
def compileCatalog (s : RunSetting) (m : CatalogModule) (r : Run) (l : Locale) : Run :=
  let catalog := m.catalogFile l
  let compiled := m.compiledFile l
  if !r.disk.isFile catalog then r.error (notExtracted catalog)
  else
    let folder := (Path.parent? compiled).getD []
    match r.disk.createFolder folder with
    | .error e => r.error ("Cannot create directory " ++ folder ++ ": " ++ e.message)
    | .ok disk =>
      let r := match Run.call s { r with disk } ⟨s.config.tools.msgfmt, [catalog, "--strict", "-o", compiled], none⟩ with
        | (some _, r) => r.info ("Compiled " ++ catalog ++ " to " ++ compiled)
        | (none, r) => r
      reviewCatalog catalog (if r.disk.isFile compiled then r else r.error (compiled ++ " not created"))

/-- Makes the variant of a source page for a locale. -/
def localizePage (s : Synthesizer) (file : Text) (r : Run) (l : Locale) : Run :=
  let (result, disk, log) := s.synthesize file l r.disk r.log
  let r := { r with disk, log }
  match result with
  | .ok _ => r
  | .error e => r.errorAt file e.message

/-- Makes the variants of a page, if it is a source page. -/
def localizeFile (s : RunSetting) (m : CatalogModule) (lookup : CatalogLookup) (r : Run) (file : Text) : Run :=
  match Document.load r.disk file with
  | .error e => r.error e.message
  | .ok page =>
    if page.mode ≠ some .translate then r
    else
      let mark := s.config.markupAttribute
      let (template, log) := Template.build ⟨mark, true⟩ m.name page r.log
      s.locales.targets.foldl (localizePage ⟨lookup, mark, m.name, template⟩ file) { r with log }

/-- Makes the variants of the pages of a module. -/
def localizePages (s : RunSetting) (modules : ModuleSet) (m : CatalogModule) (r : Run) : Run :=
  (r.filesOf s m "html").foldl (localizeFile s m (modules.lookup r.disk)) r

/-- Compiles a module. -/
def compileModule (s : RunSetting) (modules : ModuleSet) (m : CatalogModule) (r : Run) : Run :=
  let r := r.info ("Compiling gettext strings in " ++ m.path ++ " for locales: " ++ m.localeNames)
  localizePages s modules m (m.locales.foldl (compileCatalog s m) r)

/-- Why a message map is not written. -/
inductive MapError where
  | notCatalog (error : CatalogError)
  | folder (path : Text) (error : DiskError)
  | file (path : Text) (error : DiskError)
  deriving DecidableEq, Repr

/-- What a diagnostic says of a message map that is not written. -/
def MapError.message : MapError → Text
  | .notCatalog e => "Cannot parse merged catalog: " ++ e.message
  | .folder path e => "Failed to create directory: " ++ path ++ ": " ++ e.message
  | .file path e => "Failed to write file: " ++ path ++ ": " ++ e.message

/-- Writes the message map of a catalog. -/
def writeMap (d : Disk) (merged target : Text) : Except MapError Disk :=
  match MessageMap.ofText merged with
  | .error e => .error (.notCatalog e)
  | .ok map =>
    let folder := (Path.parent? target).getD []
    match d.createFolder folder with
    | .error e => .error (.folder folder e)
    | .ok d =>
      match d.write target (.text map.written) with
      | .error e => .error (.file target e)
      | .ok d => .ok d

/-- Writes the message map of a locale: what the catalog says of the texts in the template of the scripts. -/
def compileMap (s : RunSetting) (m : CatalogModule) (folder template : Text) (r : Run) (l : Locale) : Run :=
  let catalog := m.catalogFile l
  if !r.disk.isFile catalog then r.error (notExtracted catalog)
  else
    match r.call s ⟨s.config.tools.msgmerge, ["--no-fuzzy-matching", catalog, template], none⟩ with
    | (none, r) => r.error ("Cannot merge " ++ catalog ++ " with " ++ template)
    | (some output, r) =>
      let target := Path.join folder (l.web ++ ".json")
      match writeMap r.disk output.stdout target with
      | .error e => r.error e.message
      | .ok disk => { r with disk }.info ("Wrote " ++ target ++ " (" ++ l.tag ++ ")")

/-- Compiles the scripts of a module. -/
def compileDistribution (s : RunSetting) (m : CatalogModule) (r : Run) : Run :=
  let folder := Path.join (Path.join m.path distributionFolder) localeFolderName
  let template := Path.join folder templateName
  if !r.disk.isFile template then r.error (notExtracted template)
  else m.locales.foldl (compileMap s m folder template) r

/-- Compiles the module at a path, if it can be set up. -/
def compilePath (s : RunSetting) (modules : ModuleSet) (progress : RunSummary × Run) (path : Text) : RunSummary × Run :=
  let (summary, r) := progress
  match r.setUp s path (moduleName path) [s.config.tools.msgfmt] with
  | (some m, r) => ({ summary with modules := summary.modules + 1 }, compileModule s modules m r)
  | (none, r) => ({ summary with skipped := summary.skipped + 1 }, r)

/-- Compiles the scripts of the module at a path, if it can be set up. -/
def compileScripts (s : RunSetting) (progress : RunSummary × Run) (path : Text) : RunSummary × Run :=
  let (summary, r) := progress
  if !hasDistribution r.disk path then progress
  else
    match r.setUp s path (moduleName path) [s.config.tools.msgmerge] with
    | (some m, r) =>
      let r := r.info ("Compiling gettext strings from " ++ Path.join path distributionFolder ++ " for locales: " ++ m.localeNames)
      ({ summary with distributions := summary.distributions + 1 }, compileDistribution s m r)
    | (none, r) => (summary, r)

/-- Compiles a project, or its modules of a name. -/
def run (s : RunSetting) (only : Option Text) (r : Run) : Except SelectionError RunSummary × Run :=
  let (all, r) := r.modulePaths s
  let modules := ModuleSet.ofPaths r.disk all
  match selectModules all only with
  | .error e => (.error e, r)
  | .ok paths =>
    let (summary, r) := paths.foldl (compilePath s modules) (⟨0, 0, 0⟩, r)
    let (summary, r) := paths.foldl (compileScripts s) (summary, r)
    (.ok summary, r)

end Compilation

end LocalePages
