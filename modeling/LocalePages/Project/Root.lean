import LocalePages.Disk
import LocalePages.Project.Config
import LocalePages.Text.Quoted

/-!
# The root of a project

The configuration of a project is in the nearest folder around the program that has one, but not beyond the folder that a
repository starts in. That folder is the root of the project. Where there is no configuration, the defaults hold and the
root is where the search began.
-/

namespace LocalePages

/-- The name of the file that holds a configuration. -/
def configFileName : Text := ".mgettextrc.json"

/-- The name of the folder that shows where a repository starts. -/
def repositoryMark : Text := ".git"

/-- Why there is no project. -/
inductive ProjectError where
  | unreadable (path : Text) (error : DiskError)
  | notConfig (path : Text)
  | refused (error : ConfigError)
  deriving DecidableEq, Repr

/-- What a diagnostic says of a project that there is not. -/
def ProjectError.message : ProjectError → Text
  | .unreadable path e => "Failed to read config file: " ++ quoted path ++ ": " ++ e.message
  | .notConfig path => "Failed to parse config file: " ++ quoted path
  | .refused e => e.message

/-- A project: its configuration, whether a file holds it, and its root. -/
structure Project where
  config : Config
  fromFile : Bool
  root : Text
  deriving DecidableEq, Repr

namespace Project

/-- A path and those of the folders around it, from the inside out; the fuel bounds how many there are. -/
def around : Nat → Text → List Text
  | 0, path => [path]
  | fuel + 1, path =>
    match Path.parent? path with
    | some parent => path :: around fuel parent
    | none => [path]

/-- The configuration among folders: in the first that has one, unless a repository starts before. -/
def configAmong? (d : Disk) : List Text → Option Text
  | [] => none
  | folder :: rest =>
    let file := Path.join folder configFileName
    if d.has file then some file
    else if d.has (Path.join folder repositoryMark) then none
    else configAmong? d rest

/-- The file that holds the configuration for a folder. -/
def configFile? (d : Disk) (folder : Text) : Option Text := configAmong? d (around folder.length folder)

/-- The project around a folder. -/
def load (d : Disk) (folder : Text) : Except ProjectError Project :=
  match configFile? d folder with
  | none => .ok ⟨.default, false, folder⟩
  | some file =>
    match d.readText file with
    | .error e => .error (.unreadable file e)
    | .ok t =>
      match Config.parse? t with
      | none => .error (.notConfig file)
      | some config =>
        match config.check with
        | .error e => .error (.refused e)
        | .ok () => .ok ⟨config, true, (Path.parent? file).getD folder⟩

end Project

end LocalePages
