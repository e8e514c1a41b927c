import LocalePages.Command.Arguments
import LocalePages.Command.Report
import LocalePages.Project.Initial
import LocalePages.Run.Compilation
import LocalePages.Run.Extraction

/-!
# Sessions

A session is the program from its command to its end: what it does to the disk, what it writes, and the code it ends with. The code
is zero when all went well, one when the log has errors, and two when the command could not be started.
-/

namespace LocalePages

/-- How a session ends. -/
structure SessionEnd where
  code : Nat
  stdout : Text
  stderr : Text
  disk : Disk
  calls : List MadeCall

/-- Why a command could not be started. -/
inductive SessionError where
  | noRoot (path : Text) (error : DiskError)
  | noProject (error : ProjectError)
  | refused (error : ConfigError)
  | locales (error : LocaleError)
  | selection (error : SelectionError)
  | unwritten (path : Text) (error : DiskError)
  deriving DecidableEq, Repr

/-- What a diagnostic says of a command that could not be started. -/
def SessionError.message : SessionError → Text
  | .noRoot path e => "Cannot access project root: " ++ path ++ ": " ++ e.message
  | .noProject e => e.message
  | .refused e => e.message
  | .locales e => e.message
  | .selection e => e.message
  | .unwritten path e => Project.unwrittenMessage path e

namespace Session

/-- What the program is about. -/
def help : Text :=
  "Hash-anchored gettext extraction and per-locale regeneration for HTML templates\n\n" ++
    "Usage: mgettext [COMMAND]\n\n" ++
    "Commands:\n" ++
    "  extract  Extract translatable strings into messages.pot and update the .po files\n" ++
    "  compile  Compile .po files and generate translated HTML and JavaScript catalogs\n" ++
    "  init     Initialize a new .mgettextrc.json configuration file\n" ++
    "  help     Print this message or the help of the given subcommand(s)\n\n" ++
    "Options:\n" ++
    "  -h, --help     Print help\n" ++
    "  -V, --version  Print version\n"

/-- The project that options are about, with the locales that they ask for. -/
def projectOf (d : Disk) (options : CommonOptions) : Except SessionError Project := do
  let place ← match options.root with
    | none => pure d.here
    | some root => (d.resolve root).mapError (.noRoot root)
  let project ← (Project.load d place.path).mapError .noProject
  if options.locales.isEmpty then return project
  else
    let config := { project.config with locales := options.locales }
    config.check.mapError .refused
    return { project with config }

/-- Extracts or compiles the project that options are about. -/
def runPipeline (tools : Toolbox) (d : Disk) (kind : CommandKind) (options : CommonOptions) :
    Except SessionError CommandOutcome × Run :=
  let setting : Except SessionError (Project × RunSetting) := do
    let project ← projectOf d options
    return (project, ← (RunSetting.of tools project.config project.root).mapError .locales)
  match setting with
  | .error e => (.error e, .start d .empty)
  | .ok (project, setting) =>
    let start := Run.start d (.rooted project.root)
    let (result, r) := match kind with
      | .extract => Extraction.run setting options.moduleName start
      | _ => Compilation.run setting options.moduleName start
    (match result with
      | .ok summary => .ok ⟨kind, summary, r.log⟩
      | .error e => .error (.selection e), r)

/-- Does what a command says. -/
def perform (tools : Toolbox) (d : Disk) : Command → Except SessionError CommandOutcome × Run
  | .extract options => runPipeline tools d .extract options
  | .compile options => runPipeline tools d .compile options
  | .create =>
    match Project.create d d.here.path with
    | .ok (d, log) => (.ok ⟨.create, ⟨0, 0, 0⟩, log⟩, .start d log)
    | .error (path, e) => (.error (.unwritten path e), .start d .empty)

/-- What a session tells while it calls tools. -/
def tell (calls : List MadeCall) : Text := calls.flatMap fun c => "Running " ++ c.call.shown ++ "\n"

/-- A session that does what a command says; without one it says what there is. -/
def run (tools : Toolbox) (d : Disk) : Option Command → SessionEnd
  | none => ⟨0, help, [], d, []⟩
  | some command =>
    let (result, r) := perform tools d command
    let told := if command.verbose then tell r.calls else []
    match result with
    | .error e => ⟨2, [], told ++ "Error: " ++ e.message ++ "\n", r.disk, r.calls⟩
    | .ok outcome =>
      ⟨if outcome.succeeded then 0 else 1, Report.text outcome command.verbose false, told, r.disk, r.calls⟩

end Session

end LocalePages
