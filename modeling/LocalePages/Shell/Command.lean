import LocalePages.Shell.Word

/-!
# Commands of scripts

A script is one command, made of others: one after the other, one if the other went well or not, for each of some words, or the one
whose pattern stands for a word. Loops without a bound are not part of the language, so that every script ends.
-/

namespace LocalePages

/-- How a stream of a command is connected. -/
inductive RedirectKind where
  | write
  | append
  | read
  | duplicate
  deriving DecidableEq, Repr

/-- A stream by its number with what it is connected to. -/
structure Redirect where
  stream : Nat
  kind : RedirectKind
  target : ShellWord
  deriving DecidableEq, Repr

/-- A command. -/
inductive ShellCommand where
  | nothing
  | simple (line : Nat) (assignments : List (Text × ShellWord)) (words : List ShellWord) (redirects : List Redirect)
  | sequence (first second : ShellCommand)
  | andThen (first second : ShellCommand)
  | orElse (first second : ShellCommand)
  | pipe (first second : ShellCommand)
  | negated (command : ShellCommand)
  | forEach (name : Text) (words : Option (List ShellWord)) (body : ShellCommand)
  | choose (word : ShellWord) (branches : List (List ShellWord × ShellCommand))
  | branch (condition yes no : ShellCommand)

/-- A word, an operator, or the sign of a redirection. -/
inductive ShellToken where
  | word (w : ShellWord)
  | operator (sign : Text)
  | redirect (stream : Nat) (kind : RedirectKind)
  deriving DecidableEq, Repr

namespace ShellToken

/-- Reads an operator. -/
def readOperator? (t : Text) : Option (Text × Text) :=
  (["&&", "||", ";;", ";", "|", "&", "(", ")", "\n"] : List Text).findSome? fun sign =>
    (Text.dropHead? sign t).map fun rest => (sign, rest)

/-- Reads the sign of a redirection, which the number of a stream can stand before. -/
def readRedirect? (t : Text) : Option (ShellToken × Text) :=
  let digits := t.takeWhile Char.isDigit
  let stream (usual : Nat) : Nat := if digits.isEmpty then usual else ShellWord.numberOf digits
  match t.dropWhile Char.isDigit with
  | '>' :: '>' :: rest => some (.redirect (stream 1) .append, rest)
  | '>' :: '&' :: rest => some (.redirect (stream 1) .duplicate, rest)
  | '>' :: rest => some (.redirect (stream 1) .write, rest)
  | '<' :: rest => some (.redirect (stream 0) .read, rest)
  | _ => none

/-- Reads tokens with the numbers of their lines; none when a quote is not closed. -/
def readAll? : Nat → Nat → Text → Option (List (ShellToken × Nat))
  | 0, _, _ => some []
  | _, _, [] => some []
  | fuel + 1, line, c :: rest =>
    if c = ' ' || c = '\t' then readAll? fuel line rest
    else if c = '#' then readAll? fuel line (rest.dropWhile (· != '\n'))
    else
      match readRedirect? (c :: rest) with
      | some (token, rest) => (readAll? fuel line rest).map ((token, line) :: ·)
      | none =>
        match readOperator? (c :: rest) with
        | some (sign, rest) =>
          (readAll? fuel (if sign = "\n" then line + 1 else line) rest).map ((.operator sign, line) :: ·)
        | none =>
          match ShellWord.read? (rest.length + 2) (c :: rest) with
          | none => none
          | some (w, left) =>
            let read := (c :: rest).take (rest.length + 1 - left.length)
            (readAll? fuel (line + read.count '\n') left).map ((.word w, line) :: ·)

/-- Whether a token is this word, as it stands. -/
def isWord (name : Text) : ShellToken → Bool
  | .word w => w.plain? == some name
  | _ => false

/-- Whether a token is this operator. -/
def isOperator (sign : Text) (token : ShellToken) : Bool := token == .operator sign

/-- Whether a token only separates commands. -/
def isSeparator (token : ShellToken) : Bool :=
  token.isOperator ";" || token.isOperator "\n" || token.isOperator "&"

/-- Whether a token ends the commands that stand before it. -/
def isCloser (token : ShellToken) : Bool :=
  token.isOperator ")" || token.isOperator ";;" ||
    (["then", "elif", "else", "fi", "do", "done", "esac", "\x7d"] : List Text).any fun name => token.isWord name

end ShellToken

namespace ShellCommand

/-- Tokens with the numbers of their lines. -/
abbrev Tokens := List (ShellToken × Nat)

/-- Tokens after line ends. -/
def skipLines (tokens : Tokens) : Tokens := tokens.dropWhile fun (t, _) => t.isOperator "\n"

/-- What is left after a word that has to stand there. -/
def expect? (name : Text) : Tokens → Option Tokens
  | (t, _) :: rest => if t.isWord name then some rest else none
  | [] => none

/-- The words at the start of tokens. -/
def takeWords : Tokens → List ShellWord × Tokens
  | (.word w, _) :: rest =>
    let (words, rest) := takeWords rest
    (w :: words, rest)
  | rest => ([], rest)

/-- Adds a part to a command that is no compound one. -/
def addWord (assignments : List (Text × ShellWord)) (words : List ShellWord) (w : ShellWord) :
    List (Text × ShellWord) × List ShellWord :=
  match words, w.assignment? with
  | [], some assigned => (assignments ++ [assigned], [])
  | words, _ => (assignments, words ++ [w])

/-- Reads a command that is no compound one. -/
def readSimple? (line : Nat) (assignments : List (Text × ShellWord)) (words : List ShellWord) (redirects : List Redirect) :
    Tokens → Option (ShellCommand × Tokens)
  | (.word w, _) :: rest =>
    let (assignments, words) := addWord assignments words w
    readSimple? line assignments words redirects rest
  | (.redirect stream kind, _) :: (.word w, _) :: rest =>
    readSimple? line assignments words (redirects ++ [⟨stream, kind, w⟩]) rest
  | (.redirect _ _, _) :: _ => none
  | rest => some (.simple line assignments words redirects, rest)

/-- Reads the patterns of a branch, up to the bracket after them. -/
def readPatterns? : Tokens → Option (List ShellWord × Tokens)
  | (.word w, _) :: (sign, _) :: rest =>
    if sign.isOperator ")" then some ([w], rest)
    else if sign.isOperator "|" then (readPatterns? rest).map fun (patterns, rest) => (w :: patterns, rest)
    else none
  | _ => none

/-- The first command of a line, and the signs that join it to the next one. -/
inductive Joint where
  | andThen
  | orElse
  | pipe

/-- Joins two commands. -/
def Joint.join : Joint → ShellCommand → ShellCommand → ShellCommand
  | .andThen => ShellCommand.andThen
  | .orElse => ShellCommand.orElse
  | .pipe => ShellCommand.pipe

/-- The sign that joins two commands. -/
def jointOf? (t : ShellToken) : Option Joint :=
  if t.isOperator "&&" then some .andThen else if t.isOperator "||" then some .orElse else none

mutual

/-- Reads commands up to a token that ends them. The fuel bounds how deep commands are nested and how many there are. -/
def readList? : Nat → Tokens → Option (ShellCommand × Tokens)
  | 0, _ => none
  | fuel + 1, tokens =>
    match tokens.dropWhile fun (t, _) => t.isSeparator with
    | [] => some (.nothing, [])
    | (t, line) :: rest =>
      if t.isCloser then some (.nothing, (t, line) :: rest)
      else
        match readJoined? fuel ((t, line) :: rest) with
        | none => none
        | some (first, (t, line) :: rest) =>
          if t.isSeparator then
            (readList? fuel rest).map fun (second, rest) => (.sequence first second, rest)
          else if t.isCloser then some (first, (t, line) :: rest)
          else none
        | some (first, []) => some (first, [])

/-- Reads commands that hang together. -/
def readJoined? : Nat → Tokens → Option (ShellCommand × Tokens)
  | 0, _ => none
  | fuel + 1, tokens => (readPiped? fuel tokens).bind fun (first, rest) => joinMore? fuel first rest

/-- Joins a command to those after it. -/
def joinMore? : Nat → ShellCommand → Tokens → Option (ShellCommand × Tokens)
  | 0, _, _ => none
  | fuel + 1, first, tokens =>
    match tokens with
    | (t, line) :: rest =>
      match jointOf? t with
      | some joint =>
        (readPiped? fuel (skipLines rest)).bind fun (second, rest) => joinMore? fuel (joint.join first second) rest
      | none => some (first, (t, line) :: rest)
    | [] => some (first, [])

/-- Reads commands that give what they write to the next one. -/
def readPiped? : Nat → Tokens → Option (ShellCommand × Tokens)
  | 0, _ => none
  | fuel + 1, tokens =>
    match expect? "!" tokens with
    | some rest => (readPiped? fuel rest).map fun (command, rest) => (.negated command, rest)
    | none =>
      (readOne? fuel tokens).bind fun (first, rest) =>
        match rest with
        | (t, line) :: rest =>
          if t.isOperator "|" then
            (readPiped? fuel (skipLines rest)).map fun (second, rest) => (.pipe first second, rest)
          else some (first, (t, line) :: rest)
        | [] => some (first, [])

/-- Reads a command. -/
def readOne? : Nat → Tokens → Option (ShellCommand × Tokens)
  | 0, _ => none
  | _, [] => none
  | fuel + 1, (t, line) :: rest =>
    if t.isOperator "(" then
      (readList? fuel rest).bind fun (body, rest) =>
        match rest with
        | (t, _) :: rest => if t.isOperator ")" then some (body, rest) else none
        | [] => none
    else if t.isWord "\x7b" then
      (readList? fuel rest).bind fun (body, rest) => (expect? "\x7d" rest).map fun rest => (body, rest)
    else if t.isWord "if" then readBranch? fuel rest
    else if t.isWord "for" then
      match rest with
      | (.word name, _) :: rest =>
        let (words, rest) := match expect? "in" rest with
          | some rest =>
            let (words, rest) := takeWords rest
            (some words, rest)
          | none => (none, rest)
        ((expect? "do" (rest.dropWhile fun (t, _) => t.isSeparator)).bind (readList? fuel)).bind fun (body, rest) =>
          (expect? "done" rest).map fun rest => (.forEach ((name.plain?).getD []) words body, rest)
      | _ => none
    else if t.isWord "case" then
      match rest with
      | (.word w, _) :: rest =>
        ((expect? "in" (skipLines rest)).bind (readBranches? fuel)).map fun (branches, rest) => (.choose w branches, rest)
      | _ => none
    else readSimple? line [] [] [] ((t, line) :: rest)

/-- Reads a choice after its first word. -/
def readBranch? : Nat → Tokens → Option (ShellCommand × Tokens)
  | 0, _ => none
  | fuel + 1, tokens =>
    (readList? fuel tokens).bind fun (condition, rest) =>
      ((expect? "then" rest).bind (readList? fuel)).bind fun (yes, rest) =>
        match rest with
        | (t, _) :: rest =>
          if t.isWord "fi" then some (.branch condition yes .nothing, rest)
          else if t.isWord "elif" then (readBranch? fuel rest).map fun (no, rest) => (.branch condition yes no, rest)
          else if t.isWord "else" then
            (readList? fuel rest).bind fun (no, rest) =>
              (expect? "fi" rest).map fun rest => (.branch condition yes no, rest)
          else none
        | [] => none

/-- Reads the branches for the patterns of a word. -/
def readBranches? : Nat → Tokens → Option (List (List ShellWord × ShellCommand) × Tokens)
  | 0, _ => none
  | fuel + 1, tokens =>
    let tokens := skipLines tokens
    match expect? "esac" tokens with
    | some rest => some ([], rest)
    | none =>
      let tokens := match tokens with
        | (t, line) :: rest => if t.isOperator "(" then rest else (t, line) :: rest
        | [] => []
      (readPatterns? tokens).bind fun (patterns, rest) =>
        (readList? fuel rest).bind fun (body, rest) =>
          let rest := match rest with
            | (t, line) :: rest => if t.isOperator ";;" then rest else (t, line) :: rest
            | [] => []
          (readBranches? fuel rest).map fun (branches, rest) => ((patterns, body) :: branches, rest)

end

/-- Reads a script. -/
def parse? (t : Text) : Option ShellCommand :=
  (ShellToken.readAll? (t.length + 1) 1 t).bind fun tokens =>
    match readList? (8 * tokens.length + 8) tokens with
    | some (command, []) => some command
    | _ => none

end ShellCommand

end LocalePages
