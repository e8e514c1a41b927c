import LocalePages.Disk
import LocalePages.Markup.Document

/-!
# Pages on disk

A page is read from a file and written to one as a whole.
-/

namespace LocalePages

/-- Why a page is not read or written. -/
inductive PageError where
  | unreadable (path : Text) (error : DiskError)
  | unwritable (path : Text) (error : DiskError)
  deriving DecidableEq, Repr

/-- What a diagnostic says of a page that is not read or written. -/
def PageError.message : PageError → Text
  | .unreadable path e => "Cannot read file: " ++ path ++ ": " ++ e.message
  | .unwritable path e => "Cannot write file: " ++ path ++ ": " ++ e.message

namespace Document

/-- The page that a file holds. -/
def load (d : Disk) (path : Text) : Except PageError Document :=
  match d.readText path with
  | .ok t => .ok ((parse t).withPath path)
  | .error e => .error (.unreadable path e)

/-- Writes the page to a file. -/
def save (page : Document) (d : Disk) (path : Text) : Except PageError Disk :=
  match d.write path (.text page.toHtml) with
  | .ok d => .ok d
  | .error e => .error (.unwritable path e)

/-- A page is saved by writing its text. -/
theorem save_eq_ok_iff {page : Document} {d d' : Disk} {path : Text} :
    page.save d path = .ok d' ↔ d.write path (.text page.toHtml) = .ok d' := by
  unfold save
  split
  · rename_i h
    rw [h, Except.ok.injEq, Except.ok.injEq]
  · rename_i h
    rw [h]
    exact ⟨nofun, nofun⟩

end Document

end LocalePages
