import LocalePages.Text.Basic

/-!
# Paths

A path is a text. Between its slashes stand its components; empty ones and dots say nothing, except a dot at the start. Two paths
lead to the same place by the same components, but a path is shown as it was made, so the operations here cut and join texts.
-/

namespace LocalePages

/-- A part of a path. -/
inductive Component where
  | root
  | here
  | up
  | name (n : Text)
  deriving DecidableEq, Repr

namespace Path

/-- The pieces of a path between its slashes. -/
def segments (path : Text) : List Text := path.splitOn '/'

/-- Whether a piece that is not the first says nothing. -/
def isIdle (segment : Text) : Bool := segment.isEmpty || segment == "."

/-- The component that a piece stands for. -/
def componentOf (segment : Text) : Component := if segment = ".." then .up else .name segment

/-- Whether the path starts at the root. -/
def isAbsolute (path : Text) : Bool := path.startsWith "/"

/-- The components of a path. -/
def components (path : Text) : List Component :=
  match segments path with
  | [] => []
  | first :: rest =>
    let rest := (rest.filter fun s => !isIdle s).map componentOf
    if isAbsolute path then .root :: rest
    else if first.isEmpty then rest
    else if first = "." then .here :: rest
    else componentOf first :: rest

/-- Pieces without those at the end that say nothing; the first piece stays. -/
def dropIdleEnd : List Text → List Text
  | [] => []
  | first :: rest => first :: (rest.reverse.dropWhile isIdle).reverse

/-- The path that some pieces of a path spell. -/
def ofSegments (segments : List Text) : Text :=
  match segments with
  | [[]] => "/"
  | segments => Text.joinWith "/" segments

/-- The last component, if it is a name. -/
def fileName? (path : Text) : Option Text :=
  match (components path).getLast? with
  | some (.name n) => some n
  | _ => none

/-- The path without its last component. -/
def parent? (path : Text) : Option Text :=
  match (components path).getLast? with
  | none => none
  | some .root => none
  | some _ =>
    match (dropIdleEnd (segments path)).dropLast with
    | [] => some []
    | kept => some (ofSegments (dropIdleEnd kept))

/-- The path of an entry of a directory. A path from the root stays as it is. -/
def join (directory entry : Text) : Text :=
  if isAbsolute entry || directory.isEmpty then entry
  else if directory.endsWith "/" then directory ++ entry
  else directory ++ "/" ++ entry

/-- The path with another name in place of its last component, or after a path that has none. -/
def withFileName (path name : Text) : Text :=
  match fileName? path with
  | some _ => join ((parent? path).getD []) name
  | none => join path name

/-- The stem of a file name, and its extension: what follows the last dot, unless only that dot precedes it. -/
def splitName (name : Text) : Text × Option Text :=
  match Text.cutAtLast? '.' name with
  | some (stem, extension) => if stem.isEmpty then (name, none) else (stem, some extension)
  | none => (name, none)

/-- Whether two paths have the same components. -/
def same (p q : Text) : Bool := components p == components q

/-- Pieces after the first components of a path; `first` tells whether the first piece is next. -/
def dropComponents (first : Bool) : Nat → List Text → List Text
  | 0, segments => segments
  | _, [] => []
  | count + 1, s :: rest =>
    if !first && isIdle s then dropComponents false (count + 1) rest else dropComponents false count rest

/-- The path from a directory to a path inside it. -/
def relativeTo? (base path : Text) : Option Text :=
  match components base with
  | [] => some (if path.isEmpty then [] else ofSegments (dropIdleEnd (segments path)))
  | parts =>
    if parts.isPrefixOf (components path) then
      let rest := (dropComponents true parts.length (segments path)).dropWhile isIdle
      some (Text.joinWith "/" (rest.reverse.dropWhile isIdle).reverse)
    else none

/-- How a path inside a directory is shown. -/
def shownFrom (base path : Text) : Text :=
  match relativeTo? base path with
  | some relative => "./" ++ relative
  | none => path

/-- The path with no more than it needs to lead where it leads: no dots and one slash between two components. -/
def cleaned (path : Text) : Text :=
  let names := (components path).filterMap fun
    | .name n => some n
    | .up => some ".."
    | _ => none
  if isAbsolute path then "/" ++ Text.joinWith "/" names else Text.joinWith "/" names

end Path

end LocalePages
