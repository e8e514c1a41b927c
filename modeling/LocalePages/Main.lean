import LocalePages.Command.Session
import LocalePages.Disk.Changes
import LocalePages.Shell.Program

/-!
# The command line

The program reads the folder that a command is about, holds the session on what it has read, and brings the folder up to date with
what the session has changed. Nothing is decided here. The tools of a session are the scripts of a shell among the files of
that folder.
-/

namespace LocalePages

namespace CommandLine

/-- The bytes that a file of this content has. -/
def bytesOf : FileContent → ByteArray
  | .text t => ⟨(Utf8.encode t).toArray⟩
  | .bytes b => ⟨b.toArray⟩

/-- A file as a disk has it. Its rights are not known here: a file that starts as a script does can be run. -/
def fileOf (bytes : ByteArray) : DiskEntry :=
  let content := FileContent.ofBytes bytes.toList
  .file content (match content with
    | .text t => ProgramSearch.isScript t
    | .bytes _ => false)

/-- The place that a path from the root leads to. -/
def placeOf (path : String) : Place := (path.toList.splitOn '/').filter fun name => !name.isEmpty

/-- A place as a path from the root. -/
def pathOf (p : Place) : String := String.ofList p.path

/-- The places on the way from the root to a place, both included. -/
def wayTo (p : Place) : List Place := (List.range (p.length + 1)).map fun steps => p.take steps

/-- The folders on the way to a place, as a disk has them. -/
def foldersTo (p : Place) : List (Place × DiskEntry) := ((wayTo p).drop 1).map fun folder => (folder, .folder true)

/-- Reads all that is in a folder. Links are not followed, and what a repository keeps for itself is left out. -/
partial def gather (place : Place) : IO (List (Place × DiskEntry)) := do
  let folder ← IO.FS.realPath (pathOf place)
  let mut entries := []
  for entry in ← folder.readDir do
    let name := entry.fileName.toList
    let inside := place ++ [name]
    match (← entry.path.symlinkMetadata).type with
    | .dir =>
      entries := entries ++ [(inside, .folder true)]
      if name != repositoryMark then entries := entries ++ (← gather inside)
    | .file => entries := entries ++ [(inside, fileOf (← IO.FS.readBinFile entry.path))]
    | _ => pure ()
  return entries

/-- Whether a folder has a name in it. -/
def hasName (place : Place) (name : Text) : IO Bool := do
  return (← (← IO.FS.realPath (pathOf place)).readDir).any fun entry => entry.fileName.toList == name

/-- The folder to read for a place: the nearest one around it that holds a configuration or starts a repository, or else the place
itself. -/
def projectFolder (place : Place) : IO Place := do
  for folder in (wayTo place).reverse do
    if (← hasName folder configFileName) || (← hasName folder repositoryMark) then return folder
  return place

/-- The disk of a session that starts in a folder and is about another one. -/
def readDisk (start subject : Place) : IO (Place × Disk) := do
  let folder ← projectFolder subject
  let outside := ((foldersTo start).filter fun (p, _) => !folder.isPrefixOf p) ++ foldersTo folder
  return (folder, ⟨outside.eraseDups ++ (← gather folder), start⟩)

/-- Makes a change of a session outside. -/
def make (folder : Place) (change : DiskChange) : IO Unit := do
  let place := folder ++ change.place
  match change.content with
  | some content =>
    IO.FS.createDirAll (pathOf place.dropLast)
    IO.FS.writeBinFile (pathOf place) (bytesOf content)
  | none => IO.FS.removeFile (pathOf place)

/-- The root that a command asks for. -/
def rootOf : Command → Option Text
  | .extract options => options.root
  | .compile options => options.root
  | .create => none

/-- Holds a session, and gives the code that it ends with. -/
def hold (command : Option Command) : IO UInt32 := do
  let start := placeOf (← IO.currentDir).toString
  let subject ← match command.bind rootOf with
    | some root =>
      match ← (IO.FS.realPath (String.ofList root)).toBaseIO with
      | .ok path => pure (placeOf path.toString)
      | .error _ => pure start
    | none => pure start
  let (folder, before) ← readDisk start subject
  let search : ProgramSearch := ⟨(← IO.getEnv "PATH").map String.toList⟩
  let e := Session.run search.toolbox before command
  for change in Disk.changes before e.disk folder do make folder change
  IO.print (String.ofList e.stdout)
  IO.eprint (String.ofList e.stderr)
  return UInt32.ofNat e.code

/-- What is said to arguments that ask for no command, and the code that goes with it. -/
def usage : UsageError → String × UInt32
  | .help => (String.ofList Session.help, 0)
  | .version => ("mgettext 0.1.0\n", 0)
  | .unknownArgument => ("error: unexpected argument\n", 2)
  | .unknownCommand => ("error: unrecognized subcommand\n", 2)
  | .badValue => ("error: invalid value for an option\n", 2)
  | .conflict => ("error: an option cannot be used multiple times\n", 2)
  | .tooManyValues => ("error: unexpected value for an option\n", 2)

/-- Does what arguments ask for, and gives the code to end with. -/
def run (arguments : List String) : IO UInt32 := do
  match Arguments.read (arguments.map String.toList) with
  | .ok command => hold command
  | .error e =>
    let (said, code) := usage e
    if code = 0 then IO.print said else IO.eprint said
    return code

end CommandLine

end LocalePages

/-- The program. -/
def main (arguments : List String) : IO UInt32 := LocalePages.CommandLine.run arguments
