import LocalePages.Run.Basic
import LocalePages.Shell.Machine
import LocalePages.Tool.Search

/-!
# Programs on disk

A program is a file that can be run and says in its first line that the shell runs it. The shell itself is where the other
programs of the system are. No part of a call holds a NUL, and an argument has a greatest length. A call that cannot be started
leaves the disk as it is.
-/

namespace LocalePages

/-- Why a program cannot be started. -/
inductive StartError where
  | disk (error : DiskError)
  | noFormat
  | nulInCall
  | argumentTooLong
  deriving DecidableEq, Repr

/-- What a diagnostic says of a program that cannot be started. -/
def StartError.message : StartError → Text
  | .disk e => e.message
  | .noFormat => "Exec format error (os error 8)"
  | .nulInCall => "nul byte found in provided data"
  | .argumentTooLong => "Argument list too long (os error 7)"

/-- How many bytes an argument has at most. -/
def argumentLimit : Nat := 131071

/-- The folder of the programs that every system has. -/
def systemFolder : Text := "/bin"

/-- The name of the shell. -/
def shellName : Text := "sh"

/-- The path of the shell. -/
def shellPath : Text := Path.join systemFolder shellName

/-- Where programs are looked for. -/
structure ProgramSearch where
  path : Option Text
  deriving DecidableEq, Repr

namespace ProgramSearch

/-- Whether the programs of the system are found. Without a search path they are. -/
def findsSystem (s : ProgramSearch) : Bool :=
  match s.path with
  | none => true
  | some folders => (folders.splitOn ':').contains systemFolder

/-- A machine before its first command. -/
def machine (s : ProgramSearch) (d : Disk) (name : Text) (args : List Text) : Machine :=
  ⟨d, name, args, [], [], [], [], 0, none, s.findsSystem⟩

/-- What a machine leaves behind. -/
def outputOf (m : Machine) : ToolOutput :=
  let code : Option Int := match m.ended with
    | some .signal => none
    | some (.exit code) => some code
    | none => some m.status
  ⟨code, Utf8.decodeLossy m.output, Utf8.decodeLossy m.errors⟩

/-- Runs a script; one that cannot be read is a fault of its own. -/
def runScript (s : ProgramSearch) (d : Disk) (name script : Text) (args : List Text) : ToolOutput × Disk :=
  let start := s.machine d name args
  let m := match ShellCommand.parse? script with
    | some command => Machine.run command start
    | none => start.complain 1 2 "Syntax error"
  (outputOf m, m.disk)

/-- Runs the shell itself: a script among its arguments, or in a file. -/
def runShell (s : ProgramSearch) (d : Disk) (name : Text) : List Text → ToolOutput × Disk
  | ['-', 'c'] :: script :: rest => s.runScript d (rest.headD name) script rest.tail
  | file :: args =>
    match d.readText file with
    | .ok script => s.runScript d file script args
    | .error _ => (⟨some 2, [], name ++ ": 0: cannot open " ++ file ++ ": No such file\n"⟩, d)
  | [] => (⟨some 0, [], []⟩, d)

/-- Why a path does not lead to a program; none when it does. -/
def refusal? (d : Disk) (path : Text) : Option DiskError :=
  match d.place path with
  | .error e => some e
  | .ok _ => if d.isProgram path then none else some .permissionDenied

/-- What runs a script, by the path in its first line. -/
def interpreter? (t : Text) : Option Text :=
  match Text.dropHead? "#!" t with
  | none => none
  | some line =>
    let isSpace (c : Char) : Bool := c == ' ' || c == '\t'
    let path := (line.dropWhile isSpace).takeWhile fun c => !isSpace c && c != '\n'
    if path.isEmpty then none else some path

/-- Whether the shell runs a text. -/
def isScript (t : Text) : Bool := interpreter? t == some shellPath

/-- Whether an argument is longer than a call can hold. -/
def exceeds (args : List Text) : Bool := args.any fun arg => argumentLimit < Utf8.size arg

/-- Runs the program at a path. -/
def runFile (s : ProgramSearch) (d : Disk) (path : Text) (args : List Text) : Except StartError (ToolOutput × Disk) :=
  match refusal? d path with
  | some e => .error (.disk e)
  | none =>
    if exceeds args then .error .argumentTooLong
    else match d.readText path with
      | .ok t =>
        if isScript t then .ok (s.runScript d path t args)
        else if (interpreter? t).isSome then .error (.disk .notFound)
        else .error .noFormat
      | .error _ => .error .noFormat

/-- Starts the shell. -/
def startShell (s : ProgramSearch) (d : Disk) (name : Text) (args : List Text) : Except StartError (ToolOutput × Disk) :=
  if exceeds args then .error .argumentTooLong else .ok (s.runShell d name args)

/-- Starts a program. -/
def startProgram (s : ProgramSearch) (d : Disk) (program : Text) (args : List Text) :
    Except StartError (ToolOutput × Disk) :=
  if program.contains '/' then if program = shellPath then s.startShell d program args else s.runFile d program args
  else if program = "." || program = ".." then .error (.disk .permissionDenied)
  else if Disk.nameLimit < Utf8.size program then .error (.disk .nameTooLong)
  else
    match if program.isEmpty then none else findProgram d s.path program with
    | some path => s.runFile d path args
    | none => if program = shellName && s.findsSystem then s.startShell d program args else .error (.disk .notFound)

/-- Does what a call says. The program starts in the directory of the call. -/
def call (s : ProgramSearch) (d : Disk) (c : ToolCall) : Except StartError ToolOutput × Disk :=
  let started : Except StartError (ToolOutput × Disk) :=
    if (c.program :: c.args ++ c.directory.toList).any fun part => part.contains '\x00' then .error .nulInCall
    else match c.directory with
      | none => s.startProgram d c.program c.args
      | some directory =>
        match d.place directory with
        | .error e => .error (.disk e)
        | .ok p =>
          if d.isFolderAt p then s.startProgram { d with here := p } c.program c.args else .error (.disk .notFolder)
  match started with
  | .ok (output, after) => (.ok output, { after with here := d.here })
  | .error e => (.error e, d)

/-- The programs on a disk as the tools of a run. -/
def toolbox (s : ProgramSearch) : Toolbox where
  has d program := (findProgram d s.path program).isSome
  run d c :=
    let (result, d) := s.call d c
    (result.mapError StartError.message, d)

end ProgramSearch

end LocalePages
