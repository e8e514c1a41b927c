import LocalePages.Log
import LocalePages.Run.Basic

/-!
# Reports

What a command has done is told by its log, an entry on a line, and by a summary on the last line. Pieces of information are only
shown to those who want them, or need them because something went wrong.
-/

namespace LocalePages

/-- What a command does. -/
inductive CommandKind where
  | extract
  | compile
  | create
  deriving DecidableEq, Repr

/-- What a command has done. -/
structure CommandOutcome where
  kind : CommandKind
  summary : RunSummary
  log : Log

namespace CommandOutcome

/-- Whether the command did all it was asked for. -/
def succeeded (o : CommandOutcome) : Bool := !o.log.hasErrors

end CommandOutcome

/-- How a terminal shows a text. -/
inductive TextColor where
  | red
  | green
  | boldRed
  | boldYellow
  deriving DecidableEq, Repr

namespace Report

/-- What switches a terminal to a color. -/
def colorCode : TextColor → Text
  | .red => "31"
  | .green => "32"
  | .boldRed => "1;31"
  | .boldYellow => "1;33"

/-- A text in a color, where there are colors. -/
def paint (colors : Bool) (color : TextColor) (t : Text) : Text :=
  if colors then "\x1b[" ++ colorCode color ++ "m" ++ t ++ "\x1b[0m" else t

/-- A line for an entry of the log. -/
def entryLine (colors : Bool) (e : LogEntry) : Text :=
  match e.severity with
  | .error => paint colors .boldRed "error:" ++ " " ++ e.message ++ "\n"
  | .warning => paint colors .boldYellow "warning:" ++ " " ++ e.message ++ "\n"
  | .info => e.message ++ "\n"

/-- A count of things. -/
def counted (count : Nat) (one many : Text) : Text := Text.ofNat count ++ " " ++ if count = 1 then one else many

/-- What was done to the modules. -/
def verb : CommandKind → Text
  | .extract => "Extracted"
  | .compile => "Compiled"
  | .create => "Initialized"

/-- How many scripts for browsers were worked on, if any. -/
def distributionAmount (count : Nat) : Text :=
  if count = 0 then [] else ", " ++ counted count "JavaScript distribution" "JavaScript distributions"

/-- How many modules were left out, if any. -/
def skippedAmount (count : Nat) : Text := if count = 0 then [] else " (" ++ Text.ofNat count ++ " skipped)"

/-- How much was done. -/
def amount (s : RunSummary) : Text :=
  counted s.modules "module" "modules" ++ distributionAmount s.distributions ++ skippedAmount s.skipped

/-- The last line. A new project has none. -/
def summaryLine (colors : Bool) (o : CommandOutcome) : Text :=
  let done := verb o.kind ++ " " ++ amount o.summary
  if o.kind = .create then []
  else if o.succeeded then paint colors .green "✓" ++ " " ++ paint colors .green done ++ "\n"
  else
    paint colors .red "✘" ++ " " ++
      paint colors .red (done ++ " finished with " ++ counted (o.log.count .error) "error" "errors" ++ ", " ++
        counted (o.log.count .warning) "warning" "warnings") ++ "\n"

/-- Whether pieces of information are shown. -/
def showsInfo (o : CommandOutcome) (verbose : Bool) : Bool := verbose || o.kind == .create || !o.succeeded

/-- The report of what a command has done. -/
def text (o : CommandOutcome) (verbose colors : Bool) : Text :=
  (o.log.entries.filter fun e => e.severity != .info || showsInfo o verbose).flatMap (entryLine colors) ++
    summaryLine colors o

end Report

end LocalePages
