import LocalePages.Text.Blank

/-!
# Tool calls

The catalogs are made by tools that are not part of this library. A tool is called with a list of arguments, never by a line of a
shell; how a call is shown is for readers only. A call that was started ends with an output, and succeeded or not.
-/

namespace LocalePages

/-- A call of a tool. Without a directory it runs where its caller does. -/
structure ToolCall where
  program : Text
  args : List Text
  directory : Option Text
  deriving DecidableEq, Repr

namespace ToolCall

/-- An argument as a call shows it. -/
def shownArg (arg : Text) : Text :=
  if arg.isEmpty || arg.any isWide then "'" ++ Text.replace "'" "'\\''" arg ++ "'" else arg

/-- A call as it is shown. -/
def shown (c : ToolCall) : Text := c.program ++ c.args.flatMap fun arg => ' ' :: shownArg arg

/-- The value of an option among arguments: after an equals sign, or the argument that follows. -/
def optionIn? (name : Text) : List Text → Option Text
  | [] => none
  | arg :: rest =>
    match Text.dropHead? (name ++ "=") arg with
    | some value => some value
    | none => if arg = name then rest.head? else optionIn? name rest

/-- The value of an option. -/
def option? (c : ToolCall) (name : Text) : Option Text := optionIn? name c.args

end ToolCall

/-- What a tool leaves behind when it has ended; without a code, a signal ended it. -/
structure ToolOutput where
  code : Option Int
  stdout : Text
  stderr : Text
  deriving DecidableEq, Repr

namespace ToolOutput

/-- Whether the tool did what it was called for. -/
def succeeded (o : ToolOutput) : Bool := o.code == some 0

/-- All that the tool has written, without white space at the ends of either part. -/
def combined (o : ToolOutput) : Text :=
  let out := o.stdout.trimEnd
  let err := o.stderr.trimEnd
  if err.isEmpty then out else if out.isEmpty then err else out ++ "\n" ++ err

end ToolOutput

end LocalePages
