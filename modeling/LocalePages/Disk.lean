import LocalePages.Members
import LocalePages.Path
import LocalePages.Text.Utf8

/-!
# Disks

A disk maps places to files and folders. A place is the list of the names on the way from the root; a path is a text that leads to
a place, from the root or from the folder where the program runs. Every step of a path has to start in a folder, also one that
stays where it is or goes up. Names and paths hold no NUL and have a greatest length, in bytes. A file holds a text, or bytes
that are no text.
-/

namespace LocalePages

/-- The names on the way from the root of a disk. -/
abbrev Place := List Text

/-- The path of a place. -/
def Place.path (p : Place) : Text := "/" ++ Text.joinWith "/" p

/-- What a file holds. -/
inductive FileContent where
  | text (t : Text)
  | bytes (b : Bytes)
  deriving DecidableEq, Repr

/-- Bytes as the content of a file. -/
def FileContent.ofBytes (b : Bytes) : FileContent :=
  match Utf8.decode? b with
  | some t => .text t
  | none => .bytes b

/-- What is at a place. -/
inductive DiskEntry where
  | file (content : FileContent) (executable : Bool)
  | folder (writable : Bool)
  deriving DecidableEq, Repr

/-- Why the disk refuses something. -/
inductive DiskError where
  | notFound
  | permissionDenied
  | exists
  | notFolder
  | isFolder
  | nameTooLong
  | nulInName
  | notText
  deriving DecidableEq, Repr

/-- What a diagnostic says of a refusal. -/
def DiskError.message : DiskError → Text
  | .notFound => "No such file or directory (os error 2)"
  | .permissionDenied => "Permission denied (os error 13)"
  | .exists => "File exists (os error 17)"
  | .notFolder => "Not a directory (os error 20)"
  | .isFolder => "Is a directory (os error 21)"
  | .nameTooLong => "File name too long (os error 36)"
  | .nulInName => "file name contained an unexpected NUL byte"
  | .notText => "stream did not contain valid UTF-8"

/-- A disk. `here` is the folder that paths start from when they do not start at the root. -/
structure Disk where
  entries : List (Place × DiskEntry)
  here : Place
  deriving DecidableEq, Repr

namespace Disk

/-- What is at a place. The root is a folder. -/
def entry? (d : Disk) (p : Place) : Option DiskEntry :=
  if p.isEmpty then some (.folder true) else Members.get? p d.entries

/-- Whether a folder is at a place. -/
def isFolderAt (d : Disk) (p : Place) : Bool :=
  match d.entry? p with
  | some (.folder _) => true
  | _ => false

/-- The disk with another entry at a place. -/
def put (d : Disk) (p : Place) (e : DiskEntry) : Disk := { d with entries := Members.put p e d.entries }

/-- The disk without a place and all that is in it. -/
def remove (d : Disk) (p : Place) : Disk := { d with entries := d.entries.filter fun (q, _) => !p.isPrefixOf q }

/-- How many bytes a name has at most. -/
def nameLimit : Nat := 255

/-- How many bytes a path has at most. -/
def pathLimit : Nat := 4095

/-- Why nothing has a name: no name is too long. -/
def missing (name : Text) : DiskError := if nameLimit < Utf8.size name then .nameTooLong else .notFound

/-- Follows pieces of a path from a place. -/
def walk (d : Disk) (base : Place) : List Text → Except DiskError Place
  | [] => .ok base
  | piece :: rest =>
    if !d.isFolderAt base then .error .notFolder
    else if Path.isIdle piece then d.walk base rest
    else if piece = ".." then d.walk base.dropLast rest
    else if (d.entry? (base ++ [piece])).isNone then .error (missing piece)
    else d.walk (base ++ [piece]) rest

/-- Where a path starts, and its pieces from there. -/
def start (d : Disk) (path : Text) : Place × List Text :=
  if Path.isAbsolute path then ([], Path.segments path) else (d.here, Path.segments path)

/-- The place that a path leads to, however long the path is. -/
def resolve (d : Disk) (path : Text) : Except DiskError Place :=
  if path.contains '\x00' then .error .nulInName
  else if path.isEmpty then .error .notFound
  else d.walk (d.start path).1 (d.start path).2

/-- The place that a path leads to. -/
def place (d : Disk) (path : Text) : Except DiskError Place :=
  if pathLimit < Utf8.size path && !path.contains '\x00' then .error .nameTooLong else d.resolve path

/-- What a path leads to. -/
def find? (d : Disk) (path : Text) : Option DiskEntry :=
  match d.place path with
  | .ok p => d.entry? p
  | .error _ => none

/-- Whether a path leads somewhere. -/
def has (d : Disk) (path : Text) : Bool := (d.find? path).isSome

/-- Whether a path leads to a folder. -/
def isFolder (d : Disk) (path : Text) : Bool :=
  match d.find? path with
  | some (.folder _) => true
  | _ => false

/-- Whether a path leads to a file. -/
def isFile (d : Disk) (path : Text) : Bool :=
  match d.find? path with
  | some (.file _ _) => true
  | _ => false

/-- Whether a path leads to a file that can be run. -/
def isProgram (d : Disk) (path : Text) : Bool :=
  match d.find? path with
  | some (.file _ executable) => executable
  | _ => false

/-- What the file holds that a path leads to. -/
def read (d : Disk) (path : Text) : Except DiskError FileContent :=
  match d.place path with
  | .error e => .error e
  | .ok p =>
    match d.entry? p with
    | some (.file content _) => .ok content
    | some (.folder _) => .error .isFolder
    | none => .error .notFound

/-- The text of the file that a path leads to. -/
def readText (d : Disk) (path : Text) : Except DiskError Text :=
  match d.read path with
  | .error e => .error e
  | .ok (.text t) => .ok t
  | .ok (.bytes _) => .error .notText

/-- The place of a file that is to be made: its folder is there. -/
def newPlace (d : Disk) (path : Text) : Except DiskError Place :=
  let (base, pieces) := d.start path
  match pieces.getLast? with
  | none => .error .notFound
  | some name =>
    match d.walk base pieces.dropLast with
    | .error e => .error e
    | .ok folder =>
      if !d.isFolderAt folder then .error .notFolder
      else if Path.isIdle name || name = ".." then .error .isFolder
      else .ok (folder ++ [name])

/-- Writes a file: the one that is there, or a new one in a folder that is there. -/
def write (d : Disk) (path : Text) (content : FileContent) : Except DiskError Disk :=
  match d.place path with
  | .ok p =>
    match d.entry? p with
    | some (.file _ executable) => .ok (d.put p (.file content executable))
    | some (.folder _) => .error .isFolder
    | none => .error .notFound
  | .error .notFound =>
    match d.newPlace path with
    | .ok p => .ok (d.put p (.file content false))
    | .error e => .error e
  | .error e => .error e

/-- Makes the folders that are missing on the way along pieces of a path. -/
def makeFolders (d : Disk) (base : Place) : List Text → Except DiskError Disk
  | [] => .ok d
  | piece :: rest =>
    if Path.isIdle piece then d.makeFolders base rest
    else if piece = ".." then d.makeFolders base.dropLast rest
    else
      match d.entry? (base ++ [piece]) with
      | some (.folder _) => d.makeFolders (base ++ [piece]) rest
      | some (.file _ _) => .error (if rest.all Path.isIdle then .exists else .notFolder)
      | none =>
        if missing piece = .notFound then (d.put (base ++ [piece]) (.folder true)).makeFolders (base ++ [piece]) rest
        else .error (missing piece)

/-- Makes a folder, and those around it that are missing. -/
def createFolder (d : Disk) (path : Text) : Except DiskError Disk :=
  match d.place path with
  | .error .nulInName => .error .nulInName
  | .error .nameTooLong => .error .nameTooLong
  | _ => d.makeFolders (d.start path).1 (d.start path).2

/-- The order of names: a name does not come after another one. -/
def nameLe (a b : Text) : Bool := !decide (b < a)

/-- The order of places, name by name: a place does not come after another one. -/
def placeLe (p q : Place) : Bool := !decide (q < p)

/-- The names in a folder, in order. -/
def names (d : Disk) (p : Place) : List Text :=
  (d.entries.filterMap fun (q, _) =>
    match p.isPrefixOf? q with
    | some [name] => some name
    | _ => none).mergeSort nameLe

/-- The ways to the files in a folder, in order. -/
def files (d : Disk) (p : Place) : List Place :=
  (d.entries.filterMap fun (q, e) =>
    match p.isPrefixOf? q, e with
    | some (name :: rest), .file _ _ => some (name :: rest)
    | _, _ => none).mergeSort placeLe

/-- A folder at the root that is not there: its name is longer than every name that is. -/
def unused (d : Disk) : Place :=
  ["scratch" ++ List.replicate (d.entries.foldl (fun longest (p, _) => p.foldl (fun n name => max n name.length) longest) 0) '-']

end Disk

end LocalePages
