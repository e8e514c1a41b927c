import LocalePages.Disk
import LocalePages.Glob.Pattern

/-!
# Expanding patterns

A pattern with wildcards is expanded to the paths that it stands for on a disk, component by component. A component without
wildcards is followed, the others are compared with the names in a folder; hidden names are names like others, but the two
that every folder has for itself and for the one around it are only found by a component that starts with a dot.
-/

namespace LocalePages

/-- Where an expansion stands: a path and the place that it leads to. -/
structure GlobSpot where
  path : Text
  place : Place

namespace GlobSpot

/-- Whether a folder is there. -/
def isFolder (d : Disk) (s : GlobSpot) : Bool := d.isFolderAt s.place

/-- The spot one component further on, if there is anything. -/
def step? (d : Disk) (s : GlobSpot) (name : Text) : Option GlobSpot :=
  let path := Path.join s.path name
  if Disk.pathLimit < Utf8.size path then none else (d.walk s.place [name]).toOption.map (GlobSpot.mk path)

/-- The spot of an entry of the folder here. -/
def entry (s : GlobSpot) (name : Text) : GlobSpot := ⟨Path.join s.path name, s.place ++ [name]⟩

end GlobSpot

namespace Glob

/-- A path that was found, unless a folder is wanted and it is none. -/
def found (d : Disk) (foldersOnly : Bool) (s : GlobSpot) : List Text := if !foldersOnly || s.isFolder d then [s.path] else []

/-- The names a component finds in every folder, the one around it first. -/
def dotNames (p : GlobPattern) : List Text :=
  if p.tokens.head? = some (.char '.') then ([("..".toList : Text), ".".toList]).filter p.covers else []

mutual

/-- The paths that the components of a pattern stand for from a spot on. -/
def inside (d : Disk) (foldersOnly : Bool) : Nat → List GlobPattern → GlobSpot → List Text
  | 0, _, _ => []
  | _, [], s => found d foldersOnly s
  | fuel + 1, p :: rest, s =>
    match p.literal? with
    | some name => (s.step? d name).toList.flatMap fun next => inside d foldersOnly fuel rest next
    | none =>
      if s.isFolder d then
        (dotNames p).flatMap (fun name => (s.step? d name).toList.flatMap fun next => inside d foldersOnly fuel rest next) ++
          (d.names s.place).flatMap fun name => among d foldersOnly fuel p rest name (s.entry name)
      else []

/-- The paths that the components stand for, the first of which is compared with the name of an entry. -/
def among (d : Disk) (foldersOnly : Bool) : Nat → GlobPattern → List GlobPattern → Text → GlobSpot → List Text
  | 0, _, _, _, _ => []
  | fuel + 1, p, rest, name, s =>
    if p.isRecursive then
      let rest := rest.dropWhile GlobPattern.isRecursive
      let deeper := if s.isFolder d then inside d foldersOnly fuel (p :: rest) s else []
      match rest with
      | [] => if s.isFolder d then s.path :: deeper else []
      | next :: others => (if next.covers name then inside d foldersOnly fuel others s else []) ++ deeper
    else if p.covers name then inside d foldersOnly fuel rest s
    else []

end

/-- The pieces of a pattern after the slashes at its start. A slash at the end is no piece. -/
def pieces (t : Text) : List Text :=
  match t.splitOn '/' with
  | [] => []
  | all => if all.getLast? = some [] then all.dropLast else all

/-- The paths that a pattern stands for, in order. A pattern that ends with a slash stands for folders. -/
def expand (d : Disk) (pattern : Text) : Except GlobError (List Text) := do
  let _ ← GlobPattern.parse pattern
  let relative := pattern.dropWhile (· == '/')
  let components ← (pieces relative).mapM GlobPattern.parse
  let fuel := (d.entries.length + 2) * (2 * components.length + 4)
  return inside d (pattern.endsWith "/") fuel components (if Path.isAbsolute pattern then ⟨"/", []⟩ else ⟨".", d.here⟩)

end Glob

end LocalePages
