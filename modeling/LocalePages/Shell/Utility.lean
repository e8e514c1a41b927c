import LocalePages.Disk

/-!
# Utilities of scripts

What the commands do that a script finds everywhere. A utility gets its arguments, what it can read, and the disk; it leaves a
status, what it writes, and the disk as it is then.
-/

namespace LocalePages

/-- What a utility leaves behind. -/
structure UtilityEnd where
  status : Nat
  output : Bytes
  errors : Bytes
  disk : Disk

namespace Utility

/-- Ends with a status after writing. -/
def done (d : Disk) (status : Nat) (output : Bytes) : UtilityEnd := ⟨status, output, [], d⟩

/-- Ends with a complaint. -/
def fail (d : Disk) (status : Nat) (complaint : Text) : UtilityEnd := ⟨status, [], Utf8.encode (complaint ++ "\n"), d⟩

/-- The byte that octal digits spell. -/
def octalByte (digits : Text) : UInt8 :=
  UInt8.ofNat (digits.foldl (fun n digit => 8 * n + (digit.toNat - '0'.toNat)) 0)

/-- Whether a character is an octal digit. -/
def isOctal (c : Char) : Bool := '0' ≤ c && c ≤ '7'

/-- The byte that a letter stands for after a backslash. -/
def escape? (c : Char) : Option UInt8 :=
  match c with
  | 'n' => some 10
  | 't' => some 9
  | 'r' => some 13
  | 'a' => some 7
  | 'b' => some 8
  | 'f' => some 12
  | 'v' => some 11
  | '\\' => some 92
  | _ => none

/-- Writes texts with their escapes and a space between two; `skip` counts characters that were read already. -/
def echoed : Nat → Text → Bytes
  | _, [] => []
  | skip + 1, _ :: rest => echoed skip rest
  | 0, '\\' :: c :: rest =>
    if c = '0' then
      let digits := (rest.take 3).takeWhile isOctal
      octalByte digits :: echoed (1 + digits.length) (c :: rest)
    else
      match escape? c with
      | some byte => byte :: echoed 1 (c :: rest)
      | none => 92 :: echoed 0 (c :: rest)
  | 0, c :: rest => Utf8.encode [c] ++ echoed 0 rest

/-- Writes arguments on a line. -/
def echo (d : Disk) (args : List Text) : UtilityEnd :=
  match args with
  | ['-', 'n'] :: args => done d 0 (echoed 0 (Text.joinWith " " args))
  | args => done d 0 (echoed 0 (Text.joinWith " " args) ++ [10])

/-- Fills a format once. Gives what is written and the arguments that are left; `skip` counts characters read already. -/
def filled : Nat → Text → List Text → Bytes × List Text
  | _, [], args => ([], args)
  | skip + 1, _ :: rest, args => filled skip rest args
  | 0, '\\' :: c :: rest, args =>
    let digits := ((c :: rest).take 3).takeWhile isOctal
    let (bytes, skip) : Bytes × Nat :=
      if !digits.isEmpty then ([octalByte digits], digits.length)
      else
        match escape? c with
        | some byte => ([byte], 1)
        | none => ([92], 0)
    let (more, args) := filled skip (c :: rest) args
    (bytes ++ more, args)
  | 0, '%' :: c :: rest, args =>
    if c = '%' then
      let (more, args) := filled 1 (c :: rest) args
      (37 :: more, args)
    else
      let value : Text := args.headD (if c = 'd' then "0" else "")
      let (more, args) := filled 1 (c :: rest) args.tail
      ((if c = 'b' then echoed 0 value else Utf8.encode value) ++ more, args)
  | 0, c :: rest, args =>
    let (more, args) := filled 0 rest args
    (Utf8.encode [c] ++ more, args)

/-- Fills a format until no argument is left. The fuel is a bound of how often. -/
def filledAll : Nat → Text → List Text → Bytes
  | 0, _, _ => []
  | fuel + 1, format, args =>
    let (bytes, left) := filled 0 format args
    if left.isEmpty || left.length = args.length then bytes else bytes ++ filledAll fuel format left

/-- Writes arguments as a format says. -/
def printf (d : Disk) (args : List Text) : UtilityEnd :=
  match args with
  | [] => fail d 2 "printf: usage: printf format [arg ...]"
  | format :: args => done d 0 (filledAll (args.length + 1) format args)

/-- The bytes of a file. -/
def bytesOf : FileContent → Bytes
  | .text t => Utf8.encode t
  | .bytes b => b

/-- Copies one more file to the output. -/
def addFile (input : Bytes) (e : UtilityEnd) (path : Text) : UtilityEnd :=
  let complain (reason : Text) : UtilityEnd :=
    { e with status := 1, errors := e.errors ++ Utf8.encode ("cat: " ++ path ++ ": " ++ reason ++ "\n") }
  if path = "-" then { e with output := e.output ++ input }
  else
    match e.disk.read path with
    | .ok content => { e with output := e.output ++ bytesOf content }
    | .error .isFolder => complain "Is a directory"
    | .error _ => complain "No such file or directory"

/-- Copies files to the output, or the input when none is named. -/
def cat (d : Disk) (input : Bytes) (args : List Text) : UtilityEnd :=
  if args.isEmpty then done d 0 input else args.foldl (addFile input) (done d 0 [])

/-- The names in a folder that are not hidden, each on a line. -/
def listing (d : Disk) (p : Place) : Bytes :=
  Utf8.encode (((d.names p).filter fun name => !Text.startsWith name ".").flatMap fun name => name ++ "\n")

/-- Lists folders, or the one where the script runs. -/
def ls (d : Disk) (args : List Text) : UtilityEnd :=
  match args.filter fun arg => !Text.startsWith arg "-" with
  | [] => done d 0 (listing d d.here)
  | path :: _ =>
    match d.place path with
    | .ok p => done d 0 (if d.isFolderAt p then listing d p else Utf8.encode (path ++ "\n"))
    | .error _ => fail d 2 ("ls: cannot access '" ++ path ++ "': No such file or directory")

/-- Ends with the disk that something has left, or with a complaint. -/
def changed (d : Disk) (complaint : Text) : Except DiskError Disk → UtilityEnd
  | .ok d => done d 0 []
  | .error _ => fail d 1 complaint

/-- Copies a file. -/
def cp (d : Disk) (args : List Text) : UtilityEnd :=
  match args.filter fun arg => !Text.startsWith arg "-" with
  | [source, target] =>
    let target := if d.isFolder target then Path.join target ((Path.fileName? source).getD []) else target
    changed d ("cp: cannot stat '" ++ source ++ "': No such file or directory") do d.write target (← d.read source)
  | _ => fail d 1 "cp: missing file operand"

/-- Makes the files that are not there. -/
def touch (d : Disk) (args : List Text) : UtilityEnd :=
  changed d "touch: cannot touch" (args.foldlM (fun d path => if d.has path then .ok d else d.write path (.text [])) d)

/-- Makes folders. -/
def mkdir (d : Disk) (args : List Text) : UtilityEnd :=
  changed d "mkdir: cannot create directory"
    ((args.filter fun arg => !Text.startsWith arg "-").foldlM (fun d path => d.createFolder path) d)

/-- Removes files, and folders with all that is in them. -/
def rm (d : Disk) (args : List Text) : UtilityEnd :=
  done ((args.filter fun arg => !Text.startsWith arg "-").foldl (fun d path =>
    match d.place path with
    | .ok p => d.remove p
    | .error _ => d) d) 0 []

/-- Whether a condition on texts and files holds. -/
def holds (d : Disk) : List Text → Bool
  | [] => false
  | [t] => !t.isEmpty
  | [op, t] =>
    if op = "!" then t.isEmpty
    else if op = "-n" then !t.isEmpty
    else if op = "-z" then t.isEmpty
    else if op = "-e" then d.has t
    else if op = "-f" then d.isFile t
    else if op = "-d" then d.isFolder t
    else if op = "-x" then d.isProgram t
    else if op = "-s" then (d.read t).toOption.any fun content => !(bytesOf content).isEmpty
    else false
  | [s, op, t] =>
    if s = "!" then !holds d [op, t]
    else if op = "=" || op = "-eq" then s == t
    else if op = "!=" || op = "-ne" then s != t
    else false
  | op :: rest => op = "!" && !holds d rest

/-- Whether a condition holds, as a status. -/
def test (d : Disk) (args : List Text) : UtilityEnd := done d (if holds d args then 0 else 1) []

/-- The utility of a name that every shell has itself. -/
def builtIn? (name : Text) : Option (Disk → Bytes → List Text → UtilityEnd) :=
  if name = ":" || name = "true" then some fun d _ _ => done d 0 []
  else if name = "false" then some fun d _ _ => done d 1 []
  else if name = "echo" then some fun d _ args => echo d args
  else if name = "printf" then some fun d _ args => printf d args
  else if name = "pwd" then some fun d _ _ => done d 0 (Utf8.encode (d.here.path ++ "\n"))
  else if name = "test" then some fun d _ args => test d args
  else if name = "[" then some fun d _ args => test d args.dropLast
  else none

/-- The utility of a name that is a program of its own. -/
def program? (name : Text) : Option (Disk → Bytes → List Text → UtilityEnd) :=
  if name = "cat" then some cat
  else if name = "ls" then some fun d _ args => ls d args
  else if name = "cp" then some fun d _ args => cp d args
  else if name = "touch" then some fun d _ args => touch d args
  else if name = "mkdir" then some fun d _ args => mkdir d args
  else if name = "rm" then some fun d _ args => rm d args
  else none

end Utility

end LocalePages
