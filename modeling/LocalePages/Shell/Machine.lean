import LocalePages.Glob.Pattern
import LocalePages.Shell.Command
import LocalePages.Shell.Utility

/-!
# Running scripts

A machine runs the commands of a script. It holds the disk, the values of parameters, what the script can read and what it has
written, and the status of the last command. Once a script has ended itself, or a signal has, its other commands do nothing.
-/

namespace LocalePages

/-- How a script has ended before its last command: with a code, or by a signal. -/
inductive EarlyEnd where
  | exit (code : Nat)
  | signal
  deriving DecidableEq, Repr

/-- A machine. `utilities` tells whether programs are found that a shell does not have itself. -/
structure Machine where
  disk : Disk
  name : Text
  args : List Text
  vars : List (Text × Text)
  input : Bytes
  output : Bytes
  errors : Bytes
  status : Nat
  ended : Option EarlyEnd
  utilities : Bool

namespace Machine

/-! ## Values -/

/-- The number of the process, which means nothing here. -/
def processNumber : Text := "4711"

/-- The value of a parameter. -/
def value (m : Machine) : ShellParameter → Text
  | .variable name => (Members.get? name m.vars).getD []
  | .position 0 => m.name
  | .position (n + 1) => (m.args[n]?).getD []
  | .all => Text.joinWith " " m.args
  | .joined => Text.joinWith " " m.args
  | .count => Text.ofNat m.args.length
  | .status => Text.ofNat m.status
  | .process => processNumber

/-- The tokens of a pattern in which some characters mean themselves; the fuel is a bound of what is left. -/
def patternTokens : Nat → List (Char × Bool) → List GlobToken
  | 0, _ => []
  | _, [] => []
  | fuel + 1, (c, isQuoted) :: rest =>
    if isQuoted then .char c :: patternTokens fuel rest
    else if c = '*' then .anyText :: patternTokens fuel rest
    else if c = '?' then .anyChar :: patternTokens fuel rest
    else if c = '[' then
      match GlobPattern.readClass? (rest.map Prod.fst) with
      | some (token, left) => token :: patternTokens fuel (rest.drop (rest.length - left.length))
      | none => .char c :: patternTokens fuel rest
    else .char c :: patternTokens fuel rest

/-- The tokens of a pattern without quotes. -/
def plainTokens (pattern : Text) : List GlobToken := patternTokens pattern.length (pattern.map fun c => (c, false))

/-- The lengths of starts of a text in the order in which they are tried. -/
def lengths (longest : Bool) (t : Text) : List Nat :=
  let all := List.range (t.length + 1)
  if longest then all.reverse else all

/-- What is made of a value. -/
def used (v : Text) : ParameterUse → Text
  | .value => v
  | .orElse default => if v.isEmpty then default else v
  | .withoutHead longest pattern =>
    match (lengths longest v).find? fun n => GlobPattern.covers ⟨plainTokens pattern⟩ (v.take n) with
    | some n => v.drop n
    | none => v
  | .withoutTail longest pattern =>
    match (lengths longest v).find? fun n => GlobPattern.covers ⟨plainTokens pattern⟩ (v.drop (v.length - n)) with
    | some n => v.take (v.length - n)
    | none => v

/-- Whether a character separates the words in a value. -/
def isFieldBreak (c : Char) : Bool := c == ' ' || c == '\t' || c == '\n'

/-- Fields that are complete, and the one under way, if there is one. -/
abbrev Fields := List Text × Option Text

/-- Goes on with the field under way. -/
def addToField (f : Fields) (t : Text) : Fields := (f.1, some (f.2.getD [] ++ t))

/-- Ends the field under way. -/
def endField (f : Fields) : Fields := (f.1 ++ f.2.toList, none)

/-- Adds pieces, with an end of a field between two. -/
def addPieces (f : Fields) : List Text → Fields
  | [] => f
  | [t] => addToField f t
  | t :: rest => addPieces (endField (addToField f t)) rest

/-- Adds a value that is not quoted: white space in it separates fields. -/
def addUnquoted (f : Fields) (v : Text) : Fields :=
  v.foldl (fun f c => if isFieldBreak c then endField f else addToField f [c]) f

/-- Adds a part of a word. -/
def addPart (m : Machine) (f : Fields) : WordPart → Fields
  | .text t _ => addToField f t
  | .parameter .all .value true => addPieces f m.args
  | .parameter p use true => addToField f (used (m.value p) use)
  | .parameter p use false => addUnquoted f (used (m.value p) use)

/-- The fields of a word. -/
def fieldsOf (m : Machine) (w : ShellWord) : List Text :=
  -- A quoted list of no arguments is no field, though its quotes are there.
  let w := if m.args.isEmpty && w.contains (.parameter .all .value true) then w.filter (· != .text [] true) else w
  (endField (w.foldl m.addPart ([], none))).1

/-- The value of a word as one text. -/
def textOf (m : Machine) (w : ShellWord) : Text :=
  w.flatMap fun
    | .text t _ => t
    | .parameter p use _ => used (m.value p) use

/-- The tokens of a word that is a pattern. -/
def tokensOf (m : Machine) (w : ShellWord) : List GlobToken :=
  let chars := w.flatMap fun
    | .text t isQuoted => t.map fun c => (c, isQuoted)
    | .parameter p use isQuoted => (used (m.value p) use).map fun c => (c, isQuoted)
  patternTokens chars.length chars

/-! ## Streams -/

/-- Where what a command writes goes. -/
inductive Sink where
  | output
  | errors
  | file (p : Place)
  | nowhere
  deriving DecidableEq, Repr

/-- The streams of a command. -/
structure Streams where
  input : Bytes
  output : Sink
  errors : Sink

/-- Adds bytes to a file. -/
def appendAt (d : Disk) (p : Place) (bytes : Bytes) : Disk :=
  match d.entry? p with
  | some (.file content executable) => d.put p (.file (.ofBytes (Utility.bytesOf content ++ bytes)) executable)
  | _ => d

/-- Writes bytes to where they go. -/
def deliver (m : Machine) (sink : Sink) (bytes : Bytes) : Machine :=
  match sink with
  | .output => { m with output := m.output ++ bytes }
  | .errors => { m with errors := m.errors ++ bytes }
  | .file p => { m with disk := appendAt m.disk p bytes }
  | .nowhere => m

/-- Complains and fails. -/
def complain (m : Machine) (line : Nat) (status : Nat) (complaint : Text) : Machine :=
  { m with status, errors := m.errors ++ Utf8.encode (m.name ++ ": " ++ Text.ofNat line ++ ": " ++ complaint ++ "\n") }

/-- Opens a file for writing. -/
def openFile (d : Disk) (path : Text) (fresh : Bool) : Except DiskError (Disk × Sink) :=
  if path = "/dev/null" then .ok (d, .nowhere)
  else do
    let d ← if !fresh && d.isFile path then pure d else d.write path (.text [])
    return (d, .file (← d.place path))

/-- Connects a stream. -/
def connect (streams : Streams) (stream : Nat) (sink : Sink) : Streams :=
  if stream = 1 then { streams with output := sink } else if stream = 2 then { streams with errors := sink } else streams

/-- Connects a stream as a redirection says. -/
def redirect (line : Nat) (m : Machine) (streams : Streams) (r : Redirect) : Except Machine (Machine × Streams) :=
  let target := m.textOf r.target
  match r.kind with
  | .duplicate => .ok (m, connect streams r.stream (if target = "1" then streams.output else streams.errors))
  | .read =>
    if target = "/dev/null" then .ok (m, { streams with input := [] })
    else
      match m.disk.read target with
      | .ok content => .ok (m, { streams with input := Utility.bytesOf content })
      | .error _ => .error (m.complain line 2 ("cannot open " ++ target ++ ": No such file"))
  | kind =>
    match openFile m.disk target (kind == .write) with
    | .ok (disk, sink) => .ok ({ m with disk }, connect streams r.stream sink)
    | .error .isFolder => .error (m.complain line 2 ("cannot create " ++ target ++ ": Is a directory"))
    | .error _ => .error (m.complain line 2 ("cannot create " ++ target ++ ": Directory nonexistent"))

/-! ## Commands -/

/-- Gives variables their values. -/
def assign (m : Machine) (assignments : List (Text × ShellWord)) : Machine :=
  assignments.foldl (fun m (name, w) => { m with vars := Members.put name (m.textOf w) m.vars }) m

/-- The number that a text spells. -/
def numberOr (default : Nat) (t : Text) : Nat :=
  if !t.isEmpty && t.all Char.isDigit then ShellWord.numberOf t else default

/-- Ends with a signal, if the signal is for this process and ends it. -/
def kill (m : Machine) (args : List Text) : Machine :=
  if args.getLast? = some processNumber && !args.contains "-0" then { m with ended := some .signal } else { m with status := 1 }

/-- Goes to another folder. -/
def changeFolder (m : Machine) (line : Nat) (path : Text) : Machine :=
  match m.disk.place path with
  | .ok p =>
    if m.disk.isFolderAt p then { m with disk := { m.disk with here := p }, status := 0 }
    else m.complain line 2 ("cd: can't cd to " ++ path)
  | .error _ => m.complain line 2 ("cd: can't cd to " ++ path)

/-- Runs a utility. -/
def runUtility (m : Machine) (streams : Streams) (args : List Text) (utility : Disk → Bytes → List Text → UtilityEnd) :
    Machine :=
  let e := utility m.disk streams.input args
  (({ m with disk := e.disk, status := e.status }).deliver streams.output e.output).deliver streams.errors e.errors

/-- Runs a command by its name. -/
def runNamed (m : Machine) (line : Nat) (streams : Streams) (name : Text) (args : List Text) : Machine :=
  if name = "exit" then { m with ended := some (.exit (numberOr m.status (args.headD []) % 256)) }
  else if name = "kill" then m.kill args
  else if name = "cd" then m.changeFolder line (args.headD "/")
  else if name = "shift" then { m with args := m.args.drop (numberOr 1 (args.headD [])), status := 0 }
  else
    match Utility.builtIn? name, if m.utilities then Utility.program? name else none with
    | some utility, _ => m.runUtility streams args utility
    | none, some utility => m.runUtility streams args utility
    | none, none =>
      let complaint := m.name ++ ": " ++ Text.ofNat line ++ ": " ++ name ++ ": not found\n"
      ({ m with status := 127 }).deliver streams.errors (Utf8.encode complaint)

/-- Runs a command that is no compound one. -/
def runSimple (m : Machine) (line : Nat) (assignments : List (Text × ShellWord)) (words : List ShellWord)
    (redirects : List Redirect) : Machine :=
  let connected := redirects.foldlM (fun (m, streams) r => redirect line m streams r)
    (m, (⟨m.input, .output, .errors⟩ : Streams))
  match connected with
  | .error m => m
  | .ok (m, streams) =>
    match words.flatMap m.fieldsOf with
    | [] => { m.assign assignments with status := 0 }
    | name :: args => (m.assign assignments).runNamed line streams name args

mutual

/-- Runs a command. -/
def run : ShellCommand → Machine → Machine
  | .nothing, m => m
  | .simple line assignments words redirects, m => if m.ended.isSome then m else m.runSimple line assignments words redirects
  | .sequence first second, m => run second (run first m)
  | .andThen first second, m =>
    let m := run first m
    if m.status = 0 then run second m else m
  | .orElse first second, m =>
    let m := run first m
    if m.status = 0 then m else run second m
  | .pipe first second, m =>
    let inner := run first { m with output := [] }
    let last := run second
      { m with disk := inner.disk, input := inner.output, errors := inner.errors }
    { last with input := m.input }
  | .negated command, m =>
    let m := run command m
    { m with status := if m.status = 0 then 1 else 0 }
  | .forEach name words body, m =>
    let values := match words with
      | some words => words.flatMap m.fieldsOf
      | none => m.args
    values.foldl (fun m v => run body { m with vars := Members.put name v m.vars }) m
  | .choose word branches, m => runBranch (m.textOf word) branches { m with status := 0 }
  | .branch condition yes no, m =>
    let m := run condition m
    if m.ended.isSome then m else if m.status = 0 then run yes m else run no { m with status := 0 }

/-- Runs the first branch with a pattern that stands for a text. -/
def runBranch (t : Text) : List (List ShellWord × ShellCommand) → Machine → Machine
  | [], m => m
  | (patterns, body) :: rest, m =>
    if patterns.any fun w => GlobPattern.covers ⟨m.tokensOf w⟩ t then run body m else runBranch t rest m

end

end Machine

end LocalePages
