import LocalePages.Project.CatalogModule
import LocalePages.Project.Files
import LocalePages.Tool.Call

/-!
# Runs

A run works through the modules of a project. It goes along with the disk, the log, and the calls of tools that were made, each with
the disk as it was found. The tools are a parameter: a toolbox says which there are, and what a call makes of the disk.
-/

namespace LocalePages

/-- The tools that a run can call. A call that cannot be started says why. -/
structure Toolbox where
  has : Disk → Text → Bool
  run : Disk → ToolCall → Except Text ToolOutput × Disk

/-- A call that was made, with the disk that the tool found. -/
structure MadeCall where
  call : ToolCall
  disk : Disk

/-- How far a run is. -/
structure Run where
  disk : Disk
  log : Log
  calls : List MadeCall

/-- What a run works with: the tools, the configuration, the root of the project, its locales, and the patterns of the files that
are left out. -/
structure RunSetting where
  tools : Toolbox
  config : Config
  root : Text
  locales : Locales
  excludes : List GlobPattern

/-- How much a run has done. -/
structure RunSummary where
  modules : Nat
  distributions : Nat
  skipped : Nat
  deriving DecidableEq, Repr

/-- The setting of a configuration. -/
def RunSetting.of (tools : Toolbox) (config : Config) (root : Text) : Except LocaleError RunSetting :=
  config.supportedLocales.map fun locales => ⟨tools, config, root, locales, GlobPattern.parseAll config.excludes⟩

namespace Run

/-- The start of a run on a disk. -/
def start (d : Disk) (log : Log) : Run := ⟨d, log, []⟩

/-- Logs a piece of information. -/
def info (r : Run) (message : Text) : Run := { r with log := r.log.info message }

/-- Logs an error. -/
def error (r : Run) (message : Text) : Run := { r with log := r.log.error message }

/-- Logs the error that a diagnostic is about, and where it happened. -/
def errorAt (r : Run) (path message : Text) : Run := r.error (path ++ ": " ++ message)

/-- What the log says of a tool that did not do what it was called for. -/
def failureMessage (call : ToolCall) (output : ToolOutput) : Text :=
  let status : Text := match output.code with
    | some code => Text.ofInt code
    | none => "signal"
  "Command failed with status " ++ status ++ ": " ++ call.shown ++ "\n" ++ output.combined

/-- Calls a tool. Its output counts if it has succeeded, else an error is logged. -/
def call (s : RunSetting) (r : Run) (c : ToolCall) : Option ToolOutput × Run :=
  let (result, disk) := s.tools.run r.disk c
  let r := { r with disk, calls := r.calls ++ [⟨c, r.disk⟩] }
  match result with
  | .error reason => (none, r.error ("Cannot execute " ++ c.program ++ ": " ++ reason))
  | .ok output => if output.succeeded then (some output, r) else (none, r.error (failureMessage c output))

/-- Sets a module up, and logs why it cannot be. -/
def setUp (s : RunSetting) (r : Run) (path name : Text) (tools : List Text) : Option CatalogModule × Run :=
  let localeFolder := Path.join path localeFolderName
  if !r.disk.isFolder localeFolder then (none, r.info ("Skipped. No locale directory found: " ++ localeFolder))
  else
    let (result, disk, log) := CatalogModule.setup r.disk (s.tools.has r.disk) path name s.locales tools r.log
    let r := { r with disk, log }
    match result with
    | .ok m => (some m, r)
    | .error e => (none, r.errorAt path e.message)

/-- The modules of the project. -/
def modulePaths (s : RunSetting) (r : Run) : List Text × Run :=
  let (paths, log) := discoverModules r.disk s.root s.config.modules r.log
  (paths, { r with log })

/-- The files of a module that end in an extension. -/
def filesOf (s : RunSetting) (r : Run) (m : CatalogModule) (extension : Text) : List Text :=
  r.disk.findFiles m.path (GlobPattern.parseAll ["*." ++ extension]) s.excludes

end Run

/-- Why a run does not start: no module has the name that was asked for. -/
inductive SelectionError where
  | noModule (name : Text)
  deriving DecidableEq, Repr

/-- What a diagnostic says of a run that does not start. -/
def SelectionError.message : SelectionError → Text
  | .noModule name => "No configured module is named '" ++ name ++ "'"

/-- The modules that a run is about: all, or those of a name. -/
def selectModules (paths : List Text) : Option Text → Except SelectionError (List Text)
  | none => .ok paths
  | some name =>
    let selected := paths.filter fun path => moduleName path == name
    if selected.isEmpty then .error (.noModule name) else .ok selected

/-- The folder of a module's scripts for browsers, from the module. -/
def distributionFolder : Text := "install/dist"

/-- Whether a module has scripts with catalogs of their own. -/
def hasDistribution (d : Disk) (path : Text) : Bool :=
  d.isFolder (Path.join (Path.join path distributionFolder) localeFolderName)

end LocalePages
