import LocalePages.Text.Basic

/-!
# The log of a run

What a run has to say is a list of entries, in the order they were made. A log may know the directory it belongs to; its path is
then written `.` wherever it stands in a message, so that paths stay short.
-/

namespace LocalePages

/-- How grave an entry is. -/
inductive Severity where
  | info | warning | error
  deriving DecidableEq, Repr

/-- A severity as it is written. -/
def Severity.text : Severity → Text
  | .info => "info"
  | .warning => "warning"
  | .error => "error"

/-- An entry of a log. -/
structure LogEntry where
  severity : Severity
  message : Text
  deriving DecidableEq, Repr

/-- An entry as it is written. -/
def LogEntry.text (e : LogEntry) : Text := e.severity.text ++ ": " ++ e.message

/-- A log. `root` is the path that is written `.`, and is not empty. -/
structure Log where
  entries : List LogEntry
  root : Option Text
  deriving DecidableEq, Repr

namespace Log

/-- A log without entries. -/
def empty : Log := ⟨[], none⟩

/-- A log without entries that belongs to a directory. -/
def rooted (directory : Text) : Log :=
  let root := directory.dropEndWhile (· == '/')
  ⟨[], if root.isEmpty then none else some root⟩

/-- A message as the log keeps it. -/
def shortened (log : Log) (message : Text) : Text :=
  match log.root with
  | some root => Text.replace root "." message
  | none => message

/-- The log with one more entry. -/
def add (log : Log) (severity : Severity) (message : Text) : Log :=
  { log with entries := log.entries ++ [⟨severity, log.shortened message⟩] }

/-- The log with one more piece of information. -/
def info (log : Log) (message : Text) : Log := log.add .info message

/-- The log with one more warning. -/
def warning (log : Log) (message : Text) : Log := log.add .warning message

/-- The log with one more error. -/
def error (log : Log) (message : Text) : Log := log.add .error message

/-- The messages of a severity, in order. -/
def messages (log : Log) (severity : Severity) : List Text :=
  (log.entries.filter fun e => e.severity == severity).map LogEntry.message

/-- How many entries of a severity there are. -/
def count (log : Log) (severity : Severity) : Nat := log.entries.countP fun e => e.severity == severity

/-- Whether there are errors. -/
def hasErrors (log : Log) : Bool := log.count .error > 0

end Log

end LocalePages
