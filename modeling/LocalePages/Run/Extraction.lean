import LocalePages.Catalog.CallSheet
import LocalePages.Page.Storage
import LocalePages.Run.Basic

/-!
# Extraction

Extraction collects the texts of a module into the template of its catalogs, and brings the catalogs up to date. Sources are given
to the tool as copies without indentation, some at a time; the texts of pages are given as a call sheet. A file that cannot be
read is logged and left out, and a call that fails does not keep the next one from being made.
-/

namespace LocalePages

/-- The languages of sources that the tool can read. -/
inductive SourceLanguage where
  | php
  | javaScript
  deriving DecidableEq, Repr

namespace SourceLanguage

/-- The extension of sources. -/
def extension : SourceLanguage → Text
  | php => "php"
  | javaScript => "js"

/-- What the tool has to be told about sources. -/
def options : SourceLanguage → List Text
  | php => ["--add-location", "-L", "PHP"]
  | javaScript => ["--add-location", "-L", "JavaScript", "--keyword=__", "--keyword=_n:1,2"]

end SourceLanguage

namespace CallSheet

/-- Says where a text stands. -/
def comment (file mark : Text) (e : Element) : Keyword → Text
  | .text => file ++ ": Text content of " ++ e.markerSource mark
  | .attribute name => file ++ ": Attr " ++ name ++ " of " ++ e.markerSource mark

/-- Adds the texts of an element that have no hash. -/
def addElement (mark file : Text) (collected : CallSheet × Log) (e : Element) : CallSheet × Log :=
  let (sheet, log) := collected
  let (tags, log) := Tag.ofMarker (e.marker mark) log
  let bindings := (tags.map Tag.binding).filter fun a => a.hash.isNone
  (bindings.foldl (fun sheet a => sheet.emit a.domain (e.canonical a.keyword) (comment file mark e a.keyword)) sheet, log)

/-- Adds the texts of a page that have no hash. -/
def addPage (mark file : Text) (page : Document) (sheet : CallSheet) (log : Log) : CallSheet × Log :=
  (page.annotated mark).foldl (addElement mark file) (sheet, log)

end CallSheet

/-- Pieces of a list of a length, the last of which may be shorter; the fuel bounds how many there are. -/
def piecesOf {α : Type} (length : Nat) : Nat → List α → List (List α)
  | 0, _ => []
  | _, [] => []
  | fuel + 1, all => all.take length :: piecesOf length fuel (all.drop length)

/-- Cuts a list into batches. -/
def batches {α : Type} (size : Nat) (all : List α) : List (List α) := piecesOf size all.length all

namespace Extraction

/-- The name of the call sheet. -/
def sheetName : Text := "gettext-markup-strings.php"

/-- The name of the file that explains the locale folder of scripts. -/
def readmeName : Text := "README.txt"

/-- Explains the locale folder of scripts. -/
def readme : Text :=
  "This directory contains the language files for the JavaScript Gettext translations.\n\n" ++
    "DO NOT EDIT THESE FILES MANUALLY IN THIS \x7bMODULE\x7d/install/dist/locale DIRECTORY.\n\n" ++
    "They are generated automatically by the Gettext service. All translations that need to be updated\n" ++
    "are located in module's \"\x7bMODULE\x7d/locale\" directory.\n"

/-- What every call says that adds texts to a template, up to the name of the template. -/
def collectOptions : List Text :=
  ["--verbose", "--omit-header", "--join-existing", "--from-code", "UTF-8", "-F", "--package-version=1.0", "-o"]

/-- A call that adds texts to the template of a module. -/
def collectCall (s : RunSetting) (m : CatalogModule) (args : List Text) (directory : Option Text) : ToolCall :=
  let named : List Text := [m.templateFile, "--package-name=" ++ m.name]
  ⟨s.config.tools.xgettext, collectOptions ++ named ++ args, directory⟩

/-- Why a copy cannot be made. -/
inductive CopyError where
  | folder (path : Text) (error : DiskError)
  | file (path : Text) (error : DiskError)
  deriving DecidableEq, Repr

/-- What a diagnostic says of a copy that cannot be made. -/
def CopyError.message : CopyError → Text
  | .folder path e => "Failed to create directory: " ++ path ++ ": " ++ e.message
  | .file path e => "Failed to write file: " ++ path ++ ": " ++ e.message

/-- Writes a file and makes the folders around it. -/
def writeCopy (d : Disk) (path : Text) (content : Text) : Except CopyError Disk :=
  let folder := (Path.parent? path).getD []
  match d.createFolder folder with
  | .error e => .error (.folder folder e)
  | .ok d =>
    match d.write path (.text content) with
    | .error e => .error (.file path e)
    | .ok d => .ok d

/-- Copies sources of a module to another folder, without indentation. Gives the paths of the copies from there, or how far it came
with why it came no further. -/
def copySources (m : CatalogModule) (scratch : Text) : List Text → Run → Except CopyError (List Text) × Run
  | [], r => (.ok [], r)
  | file :: rest, r =>
    match Path.relativeTo? m.path file with
    | none => copySources m scratch rest r
    | some relative =>
      match r.disk.readText file with
      | .error e => copySources m scratch rest (r.error ("Cannot read file: " ++ file ++ ": " ++ e.message))
      | .ok t =>
        match writeCopy r.disk (Path.join scratch relative) t.dedent with
        | .error e => (.error e, r)
        | .ok disk =>
          let (copied, r) := copySources m scratch rest { r with disk }
          (copied.map (relative :: ·), r)

/-- Gives sources to the tool, in batches. -/
def collectBatches (s : RunSetting) (m : CatalogModule) (language : SourceLanguage) (scratch : Text) (relative : List Text)
    (r : Run) : Run :=
  (batches s.config.batchSize relative).foldl (fun r batch =>
    match r.call s (collectCall s m (language.options ++ batch) (some scratch)) with
    | (some _, r) =>
      r.info ("Extracted gettext strings from " ++ Text.ofNat batch.length ++ " *." ++ language.extension ++ " files")
    | (none, r) => r) r

/-- Collects the texts of sources in a language. -/
def collectSources (s : RunSetting) (m : CatalogModule) (language : SourceLanguage) (r : Run) : Run :=
  let files := r.filesOf s m language.extension
  if files.isEmpty then r
  else
    let scratch := r.disk.unused
    let r := { r with disk := r.disk.put scratch (.folder true) }
    let (copied, r) := copySources m scratch.path files r
    let r := match copied with
      | .ok relative => collectBatches s m language scratch.path relative r
      | .error e => r.errorAt m.path e.message
    { r with disk := r.disk.remove scratch }

/-- Adds the texts of a page to a call sheet, if it is a source page. -/
def addFile (s : RunSetting) (m : CatalogModule) (collected : CallSheet × Run) (file : Text) : CallSheet × Run :=
  let (sheet, r) := collected
  match Document.load r.disk file with
  | .error e => (sheet, r.error e.message)
  | .ok page =>
    if page.mode ≠ some .translate then (sheet, r)
    else
      let r := r.info ("Preparing extraction from " ++ file)
      let (sheet, log) := sheet.addPage s.config.markupAttribute (Path.shownFrom m.path file) page r.log
      (sheet, { r with log })

/-- Collects the texts of pages. -/
def collectPages (s : RunSetting) (m : CatalogModule) (r : Run) : Run :=
  let (sheet, r) := (r.filesOf s m "html").foldl (addFile s m) (.empty, r)
  if sheet.isEmpty then r
  else
    let scratch := r.disk.unused
    let path := Path.join scratch.path sheetName
    let r := { r with disk := r.disk.put scratch (.folder true) }
    let r := match r.disk.write path (.text sheet.source) with
      | .error e => r.errorAt m.path (CopyError.message (.file path e))
      | .ok disk =>
        let call := collectCall s m ["-L", "PHP", "--no-location", "--add-comments=" ++ sourceCommentTag, path] none
        match Run.call s { r with disk } call with
        | (some _, r) => r.info ("Extracted " ++ Text.ofNat sheet.size ++ " gettext strings from HTML files")
        | (none, r) => r
    { r with disk := r.disk.remove scratch }

/-- Collects all texts of a module. -/
def collect (s : RunSetting) (m : CatalogModule) (r : Run) : Run :=
  collectPages s m (collectSources s m .javaScript (collectSources s m .php r))

/-- Brings the catalog of a locale up to date, or makes it. -/
def updateCatalog (s : RunSetting) (m : CatalogModule) (r : Run) (l : Locale) : Run :=
  let catalog := m.catalogFile l
  if r.disk.has catalog then
    ((r.info ("Updating " ++ catalog)).call s
      ⟨s.config.tools.msgmerge, ["--previous", "--update", catalog, m.templateFile], none⟩).2
  else
    ((r.info ("Creating " ++ catalog)).call s
      ⟨s.config.tools.msginit, ["--no-translator", "--input=" ++ m.templateFile, "--locale=" ++ l.posix,
        "--output=" ++ catalog], none⟩).2

/-- What the log says at the start of a module. -/
def startMessage (m : CatalogModule) (ending : Text) : Text :=
  "Extracting gettext strings from " ++ m.path ++ " for locales: " ++ m.localeNames ++ ending

/-- Extracts a module. -/
def extractModule (s : RunSetting) (m : CatalogModule) (r : Run) : Run :=
  m.locales.foldl (updateCatalog s m) (collect s m (r.info (startMessage m " (with PO files)")))

/-- Extracts the scripts of a module, whose catalogs are those of the module. -/
def extractDistribution (s : RunSetting) (m : CatalogModule) (r : Run) : Run :=
  let r := collect s m (r.info (startMessage m " (no PO files)"))
  let path := Path.join m.localeFolder readmeName
  match r.disk.write path (.text readme) with
  | .ok disk => { r with disk }
  | .error e => r.error (CopyError.message (.file path e))

/-- The tools that extraction needs. -/
def tools (s : RunSetting) : List Text := [s.config.tools.xgettext, s.config.tools.msginit, s.config.tools.msgmerge]

/-- Extracts the module at a path, if it can be set up. -/
def extractPath (s : RunSetting) (progress : RunSummary × Run) (path : Text) : RunSummary × Run :=
  let (summary, r) := progress
  match r.setUp s path (moduleName path) (tools s) with
  | (some m, r) => ({ summary with modules := summary.modules + 1 }, extractModule s m r)
  | (none, r) => ({ summary with skipped := summary.skipped + 1 }, r)

/-- Extracts the scripts of the module at a path, if they can be set up. -/
def extractScripts (s : RunSetting) (progress : RunSummary × Run) (path : Text) : RunSummary × Run :=
  let (summary, r) := progress
  if !hasDistribution r.disk path then progress
  else
    match r.setUp s (Path.join path distributionFolder) (moduleName path) [s.config.tools.xgettext] with
    | (some m, r) => ({ summary with distributions := summary.distributions + 1 }, extractDistribution s m r)
    | (none, r) => (summary, r)

/-- Extracts a project, or its modules of a name. -/
def run (s : RunSetting) (only : Option Text) (r : Run) : Except SelectionError RunSummary × Run :=
  let (paths, r) := r.modulePaths s
  match selectModules paths only with
  | .error e => (.error e, r)
  | .ok paths =>
    let r := r.info "Extracting gettext strings from module folders..."
    let (summary, r) := paths.foldl (extractPath s) (⟨0, 0, 0⟩, r)
    let r := r.info ("Extracting gettext strings from \"" ++ distributionFolder ++ "\" folders...")
    let (summary, r) := paths.foldl (extractScripts s) (summary, r)
    (.ok summary, r)

end Extraction

end LocalePages
