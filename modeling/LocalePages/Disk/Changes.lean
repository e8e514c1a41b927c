import LocalePages.Disk

/-!
# Changes of a disk

What became of a disk is told by its files: those with another content than before, and those that are gone.
-/

namespace LocalePages

/-- What has happened to a file. -/
structure DiskChange where
  place : Place
  content : Option FileContent
  deriving DecidableEq, Repr

namespace Disk

/-- What the file at a place holds. -/
def contentAt? (d : Disk) (p : Place) : Option FileContent :=
  match d.entry? p with
  | some (.file content _) => some content
  | _ => none

/-- The files in a folder that are not what they were before. -/
def changes (before after : Disk) (folder : Place) : List DiskChange :=
  let gone := (before.files folder).filter fun p => (after.contentAt? (folder ++ p)).isNone
  let changed := (after.files folder).filter fun p => before.contentAt? (folder ++ p) != after.contentAt? (folder ++ p)
  changed.map (fun p => ⟨p, after.contentAt? (folder ++ p)⟩) ++ gone.map fun p => ⟨p, none⟩

end Disk

end LocalePages
