import LocalePages.Catalog.Literal
import LocalePages.Text.Blank

/-!
# Call sheets

The tool that collects the texts of sources cannot read markup. It gets a call sheet in place of a page: a source in PHP that
calls the catalog functions with the texts of the page, each with a comment that says where the text stands. Two calls that
are written alike are one.
-/

namespace LocalePages

/-- The word at the start of a comment that goes into the catalogs. -/
def sourceCommentTag : Text := "Source:"

/-- A call for a text. Neither the text nor the comment is as it was given: the comment is canonical. -/
structure SheetCall where
  domain : Option Text
  canonical : Text
  comment : Text
  deriving DecidableEq, Repr

/-- The call itself. -/
def SheetCall.expression (c : SheetCall) : Text :=
  match c.domain with
  | some domain => "dgettext(" ++ Literal.written domain ++ ", " ++ Literal.written c.canonical ++ ");"
  | none => "_(" ++ Literal.written c.canonical ++ ");"

/-- The call on its lines, after its comment. -/
def SheetCall.written (c : SheetCall) : Text :=
  "// " ++ sourceCommentTag ++ " " ++ c.comment ++ "\n" ++ c.expression ++ "\n"

/-- A call sheet. -/
structure CallSheet where
  calls : List SheetCall
  deriving DecidableEq, Repr

namespace CallSheet

/-- The sheet without calls. -/
def empty : CallSheet := ⟨[]⟩

/-- Adds a call for a text that is not empty, unless one is there that is written alike. -/
def emit (s : CallSheet) (domain : Option Text) (canonical comment : Text) : CallSheet :=
  let call : SheetCall := ⟨domain, canonical, Text.canonical comment⟩
  if canonical.isEmpty || s.calls.any fun c => c.written == call.written then s else ⟨s.calls ++ [call]⟩

/-- How many calls there are. -/
def size (s : CallSheet) : Nat := s.calls.length

/-- Whether there is no call. -/
def isEmpty (s : CallSheet) : Bool := s.calls.isEmpty

/-- The sheet as a source. -/
def source (s : CallSheet) : Text := "<?php\n" ++ s.calls.flatMap SheetCall.written

end CallSheet

end LocalePages
