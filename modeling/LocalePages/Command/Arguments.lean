import LocalePages.Text.Basic

/-!
# Arguments

A command is asked for by its name and options after it. An option has a long name, or a short one; a value stands after an equals
sign, right after a short name, or in the next argument. Short names of options without a value can be joined. An option is
settled when the next one comes, so that an unknown argument in between is found first.
-/

namespace LocalePages

/-- The options of extraction and compilation. -/
structure CommonOptions where
  root : Option Text
  moduleName : Option Text
  locales : List Text
  verbose : Bool
  deriving DecidableEq, Repr

/-- What is asked for. -/
inductive Command where
  | extract (options : CommonOptions)
  | compile (options : CommonOptions)
  | create
  deriving DecidableEq, Repr

/-- Why no command is asked for. Help and the version can be asked for in place of a command. -/
inductive UsageError where
  | unknownArgument
  | unknownCommand
  | badValue
  | conflict
  | tooManyValues
  | help
  | version
  deriving DecidableEq, Repr

/-- The options before any was given. -/
def CommonOptions.none : CommonOptions := ⟨Option.none, Option.none, [], false⟩

/-- Whether a command says what it does while it does it. -/
def Command.verbose : Command → Bool
  | .extract options => options.verbose
  | .compile options => options.verbose
  | .create => false

namespace Arguments

/-- An option that has a value. -/
inductive ValueOption where
  | root
  | moduleName
  | locale
  deriving DecidableEq, Repr

/-- An option. -/
inductive NamedOption where
  | valued (o : ValueOption)
  | verbose
  | help
  deriving DecidableEq, Repr

/-- The option of a long name. The command for new projects only has help. -/
def longOption? (isRun : Bool) (name : Text) : Option NamedOption :=
  if name = "help" then some .help
  else if !isRun then none
  else if name = "root" then some (.valued .root)
  else if name = "module" then some (.valued .moduleName)
  else if name = "locale" then some (.valued .locale)
  else if name = "verbose" then some .verbose
  else none

/-- The option of a short name. -/
def shortOption? (isRun : Bool) (name : Char) : Option NamedOption :=
  if name = 'h' then some .help
  else if !isRun then none
  else if name = 'm' then some (.valued .moduleName)
  else if name = 'l' then some (.valued .locale)
  else if name = 'v' then some .verbose
  else none

/-- How far the options were read: those that are settled, and the last one with its value, if it has come. -/
structure Progress where
  options : CommonOptions
  last : Option (ValueOption × Option Text)

/-- Gives an option its value. Only locales can be given more than once, and a root has to be a path. -/
def setValue (options : CommonOptions) (value : Text) : ValueOption → Except UsageError CommonOptions
  | .root =>
    if options.root.isSome then .error .conflict
    else if value.isEmpty then .error .badValue
    else .ok { options with root := some value }
  | .moduleName =>
    if options.moduleName.isSome then .error .conflict else .ok { options with moduleName := some value }
  | .locale => .ok { options with locales := options.locales ++ [value] }

/-- Settles the last option. -/
def settle (p : Progress) : Except UsageError CommonOptions :=
  match p.last with
  | none => .ok p.options
  | some (_, none) => .error .badValue
  | some (o, some value) => setValue p.options value o

/-- Takes in an option with a value of its own. -/
def addValue (p : Progress) (o : ValueOption) (value : Text) : Except UsageError Progress := do
  let options ← settle p
  return ⟨← setValue options value o, none⟩

/-- Takes in an option whose value is to come. -/
def await (p : Progress) (o : ValueOption) : Except UsageError Progress := do
  return ⟨← settle p, some (o, none)⟩

/-- Takes in an option that has no value. -/
def addFlag (p : Progress) (o : NamedOption) : Except UsageError Progress := do
  let options ← settle p
  match o with
  | .help => .error .help
  | _ => if options.verbose then .error .conflict else .ok ⟨{ options with verbose := true }, none⟩

/-- Takes in a long name with what follows it. -/
def addLong (isRun : Bool) (p : Progress) (argument : Text) : Except UsageError Progress :=
  let (name, value) := match Text.cutAt? '=' argument with
    | some (name, value) => (name, some value)
    | none => (argument, none)
  match longOption? isRun name, value with
  | none, _ => .error .unknownArgument
  | some (.valued o), some value => addValue p o value
  | some (.valued o), none => await p o
  | some _, some _ => .error .tooManyValues
  | some o, none => addFlag p o

/-- Takes in short names, the last of which can have its value after it. -/
def addShort (isRun : Bool) (p : Progress) : Text → Except UsageError Progress
  | [] => .ok p
  | name :: rest =>
    match shortOption? isRun name with
    | none => .error .unknownArgument
    | some (.valued o) =>
      match rest with
      | [] => await p o
      | '=' :: value => addValue p o value
      | value => addValue p o value
    | some o => do addShort isRun (← addFlag p o) rest

/-- Takes in an argument that is no option. -/
def addPlain (p : Progress) (argument : Text) : Except UsageError Progress :=
  match p.last with
  | some (o, none) => .ok { p with last := some (o, some argument) }
  | _ => .error .unknownArgument

/-- Reads the options of a command. After two dashes nothing is an option, and nothing else has a place. -/
def readOptions (isRun : Bool) (p : Progress) : List Text → Except UsageError CommonOptions
  | [] => settle p
  | argument :: rest =>
    match argument with
    | ['-', '-'] => if rest.isEmpty then settle p else .error .unknownArgument
    | '-' :: '-' :: named => do readOptions isRun (← addLong isRun p named) rest
    | '-' :: c :: named => do readOptions isRun (← addShort isRun p (c :: named)) rest
    | plain => do readOptions isRun (← addPlain p plain) rest

/-- Whether there is a command of this name. -/
def isCommand (name : Text) : Bool := (["extract", "compile", "init", "help"] : List Text).contains name

/-- Reads a command after its name. Help can be asked for about a command. -/
def readCommand (name : Text) (rest : List Text) : Except UsageError Command := do
  if name = "help" then
    match rest with
    | [] => .error .help
    | [about] => .error (if isCommand about then .help else .unknownCommand)
    | _ => .error .unknownCommand
  else if name = "init" then
    let _ ← readOptions false ⟨.none, none⟩ rest
    return .create
  else
    let options ← readOptions true ⟨.none, none⟩ rest
    return if name = "extract" then .extract options else .compile options

/-- What is asked for by joined short names before any command. -/
def readFlags : Text → Except UsageError (Option Command)
  | 'h' :: _ => .error .help
  | 'V' :: _ => .error .version
  | _ => .error .unknownArgument

/-- What is asked for by a long name before any command. -/
def readLong (argument : Text) : Except UsageError (Option Command) :=
  let (name, value) := match Text.cutAt? '=' argument with
    | some (name, value) => (name, some value)
    | none => (argument, none)
  if name = "help" then .error (if value.isSome then .tooManyValues else .help)
  else if name = "version" then .error (if value.isSome then .tooManyValues else .version)
  else .error .unknownArgument

/-- Reads the arguments of the program; none when no command is asked for. -/
def read : List Text → Except UsageError (Option Command)
  | [] => .ok none
  | argument :: rest =>
    if isCommand argument then (readCommand argument rest).map some
    else
      match argument with
      | ['-', '-'] =>
        match rest with
        | [] => .ok none
        | plain :: _ => .error (if isCommand plain then .unknownArgument else .unknownCommand)
      | '-' :: '-' :: named => readLong named
      | '-' :: c :: named => readFlags (c :: named)
      | _ => .error .unknownCommand

end Arguments

end LocalePages
