import LocalePages.Catalog.Lookup
import LocalePages.Log
import LocalePages.Project.Modules

/-!
# Modules with catalogs

A module is a folder with a locale folder in it, where the template of its catalogs and the catalogs are. Before the tools may work
on a module everything they need is checked, and only then the template and the list of locales are made where they are missing.
-/

namespace LocalePages

/-- The name of the folder where the catalogs of a module are. -/
def localeFolderName : Text := "locale"

/-- The name of the template of the catalogs. -/
def templateName : Text := "messages.pot"

/-- The name of the file that lists the locales of a module. -/
def localeListName : Text := "LINGUAS"

/-- A template without texts. -/
def templateHeader : Text :=
  "msgid \"\"\nmsgstr \"\"\n\"Content-Type: text/plain; charset=UTF-8\\n\"\n\"Language: en\\n\"\n\n"

/-- A module that is ready for the tools. -/
structure CatalogModule where
  name : Text
  path : Text
  localeFolder : Text
  templateFile : Text
  locales : List Locale
  deriving DecidableEq, Repr

/-- Why a module is not ready. -/
inductive SetupError where
  | noFolder (path : Text)
  | noLocaleFolder (path : Text)
  | notWritable (path : Text)
  | toolMissing (name : Text)
  | unwritable (path : Text) (error : DiskError)
  | unreadable (path : Text) (error : DiskError)
  deriving DecidableEq, Repr

/-- What a diagnostic says of a module that is not ready. -/
def SetupError.message : SetupError → Text
  | .noFolder path => "The gettext directory does not exist: " ++ path
  | .noLocaleFolder path => "The locale directory does not exist: " ++ path
  | .notWritable path => "The locale directory is not writable: " ++ path
  | .toolMissing name => "The command " ++ name ++ " is not found."
  | .unwritable path e => "Failed to write file: " ++ path ++ ": " ++ e.message
  | .unreadable path e => "Failed to read file: " ++ path ++ ": " ++ e.message

namespace CatalogModule

/-- The catalog of a locale. -/
def catalogFile (m : CatalogModule) (l : Locale) : Text := LocalePages.catalogFile m.localeFolder l

/-- The folder of the compiled catalog of a locale. -/
def compiledFolder (m : CatalogModule) (l : Locale) : Text := Path.join (Path.join m.localeFolder l.posix) "LC_MESSAGES"

/-- The compiled catalog of a locale. -/
def compiledFile (m : CatalogModule) (l : Locale) : Text := Path.join (m.compiledFolder l) (m.name ++ ".mo")

/-- The names of the module's locales. -/
def localeNames (m : CatalogModule) : Text := Text.joinWith ", " (m.locales.map Locale.posix)

/-- The words of a line between white space. -/
def wordsOf (line : Text) : List Text := (line.splitOnP isWide).filter fun word => !word.isEmpty

/-- The names that a list of locales has. A line that starts with a hash says nothing. -/
def listedIds (t : Text) : List Text :=
  ((t.lines.map Text.trim).filter fun line => !Text.startsWith line "#").flatMap wordsOf

/-- Reads the locales of some names; one that is no locale is a warning. -/
def readIds (path : Text) (ids : List Text) (log : Log) : List Locale × Log :=
  ids.foldl (fun (locales, log) id =>
    match Locale.parse id with
    | .ok l => (locales ++ [l], log)
    | .error e => (locales, log.warning (path ++ ": " ++ e.message))) ([], log)

/-- The locales of a module: those of the project, those that it lists, and the one of source pages, each once. -/
def allLocales (supported : Locales) (listed : List Locale) : List Locale :=
  (supported.tags ++ listed ++ [supported.default]).foldl Locales.addNew []

/-- What keeps a module from being set up before anything was done. -/
def fault? (d : Disk) (hasTool : Text → Bool) (path : Text) (tools : List Text) : Option SetupError :=
  let localeFolder := Path.join path localeFolderName
  if !d.isFolder path then some (.noFolder path)
  else
    match d.find? localeFolder with
    | some (.folder true) => (tools.find? fun tool => !hasTool tool).map .toolMissing
    | some (.folder false) => some (.notWritable localeFolder)
    | _ => some (.noLocaleFolder localeFolder)

/-- Writes a file unless something is at its path. -/
def writeMissing (d : Disk) (path content : Text) : Except SetupError Disk :=
  if d.has path then .ok d
  else
    match d.write path (.text content) with
    | .ok d => .ok d
    | .error e => .error (.unwritable path e)

/-- Makes the files that are missing in the locale folder. -/
def makeFiles (d : Disk) (localeFolder : Text) (supported : Locales) : Except SetupError Disk :=
  match writeMissing d (Path.join localeFolder templateName) templateHeader with
  | .error e => .error e
  | .ok d =>
    writeMissing d (Path.join localeFolder localeListName) (supported.tags.flatMap fun l => l.posix ++ "\n")

/-- Makes a module ready. -/
def setup (d : Disk) (hasTool : Text → Bool) (path name : Text) (supported : Locales) (tools : List Text) (log : Log) :
    Except SetupError CatalogModule × Disk × Log :=
  match fault? d hasTool path tools with
  | some e => (.error e, d, log)
  | none =>
    let localeFolder := Path.join path localeFolderName
    match makeFiles d localeFolder supported with
    | .error e => (.error e, d, log)
    | .ok d =>
      let listFile := Path.join localeFolder localeListName
      match d.readText listFile with
      | .error e => (.error (.unreadable listFile e), d, log)
      | .ok t =>
        let (listed, log) := readIds listFile (listedIds t) log
        (.ok ⟨name, path, localeFolder, Path.join localeFolder templateName, allLocales supported listed⟩, d, log)

end CatalogModule

/-- The modules among paths: those with a locale folder. -/
def ModuleSet.ofPaths (d : Disk) (paths : List Text) : ModuleSet :=
  (paths.filter fun path => d.isFolder (Path.join path localeFolderName)).map fun path =>
    (moduleName path, Path.join path localeFolderName)

end LocalePages
