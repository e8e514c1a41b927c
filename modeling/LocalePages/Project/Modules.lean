import LocalePages.Glob.Expand
import LocalePages.Log
import LocalePages.Project.Config

/-!
# The modules of a project

A configuration lists modules by paths from the root, or by patterns for folders. The modules come in the order of the list, and
each folder once. An entry that leads nowhere is a warning and no more.
-/

namespace LocalePages

/-- The folders among paths. -/
def foldersAmong (d : Disk) (paths : List Text) : List Text := (paths.filter d.isFolder).map Path.cleaned

/-- Adds folders that are not there yet. -/
def addFolders (folders new : List Text) : List Text :=
  new.foldl (fun folders f => if folders.any (Path.same f) then folders else folders ++ [f]) folders

/-- What an entry of the modules stands for. -/
def expandEntry (d : Disk) (root entry : Text) (log : Log) : List Text × Log :=
  let path := Path.join root entry
  if Config.isPattern entry then
    match Glob.expand d path with
    | .ok paths => (foldersAmong d paths, log)
    | .error e => ([], log.warning ("Invalid module pattern '" ++ entry ++ "': " ++ e.message))
  else
    let path := Path.cleaned path
    if d.isFolder path then ([path], log) else ([], log.warning ("Module path does not exist: " ++ path))

/-- The modules that entries stand for. -/
def discoverModules (d : Disk) (root : Text) (entries : List Text) (log : Log) : List Text × Log :=
  entries.foldl (fun (folders, log) entry =>
    let (new, log) := expandEntry d root entry log
    (addFolders folders new, log)) ([], log)

/-- The name of a module: that of its folder. -/
def moduleName (path : Text) : Text := (Path.fileName? path).getD path

end LocalePages
