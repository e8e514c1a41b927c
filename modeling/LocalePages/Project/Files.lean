import LocalePages.Disk
import LocalePages.Glob.Pattern

/-!
# The files of a folder

The files of a folder are those that one pattern stands for and no other one leaves out. A pattern is compared with the path from
the folder, which starts with a dot. They come in the order of their paths, name by name.
-/

namespace LocalePages

/-- The way from a folder to a file as patterns see it. -/
def wayShown (way : Place) : Text := "./" ++ Text.joinWith "/" way

/-- Whether a way is wanted. -/
def isWanted (includes excludes : List GlobPattern) (way : Place) : Bool :=
  includes.any (fun p => p.covers (wayShown way)) && !excludes.any fun p => p.covers (wayShown way)

namespace Disk

/-- The ways from a path to the files in it; a file is at the end of the way that has no step. -/
def waysIn (d : Disk) (path : Text) : List Place :=
  match d.place path with
  | .error _ => []
  | .ok p => if d.isFolderAt p then d.files p else [[]]

/-- The files in a folder that are wanted. -/
def findFiles (d : Disk) (folder : Text) (includes excludes : List GlobPattern) : List Text :=
  ((d.waysIn folder).filter (isWanted includes excludes)).map fun way => way.foldl Path.join folder

end Disk

end LocalePages
