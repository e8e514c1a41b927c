import LocalePages.Glob.Pattern
import LocalePages.Json.Reader
import LocalePages.Locale
import LocalePages.Members

/-!
# Configurations

A project says in a file of JSON which locales it has, where its modules are, which files are left out, which attribute marks a
text, and how the tools are called. What the file does not say has a default. A configuration that fits its shape can still say
something that makes no sense, and is then refused before anything is done.
-/

namespace LocalePages

/-- The names of the tools. -/
structure ToolNames where
  xgettext : Text
  msginit : Text
  msgmerge : Text
  msgfmt : Text
  deriving DecidableEq, Repr

/-- A configuration. -/
structure Config where
  locales : List Text
  defaultLocale : Text
  modules : List Text
  excludes : List Text
  markupAttribute : Text
  batchSize : Nat
  tools : ToolNames
  deriving DecidableEq, Repr

/-- The tools by the names they usually have. -/
def ToolNames.usual : ToolNames := ⟨"xgettext", "msginit", "msgmerge", "msgfmt"⟩

/-- All names of tools. -/
def ToolNames.all (t : ToolNames) : List Text := [t.xgettext, t.msginit, t.msgmerge, t.msgfmt]

/-- Why a configuration is refused. -/
inductive ConfigError where
  | exclude (pattern : Text) (error : GlobError)
  | modulePattern (pattern : Text) (error : GlobError)
  | locale (id : Text) (error : LocaleError)
  | defaultLocale (id : Text) (error : LocaleError)
  | markupAttribute (name : Text)
  | batchSize
  | toolName
  deriving DecidableEq, Repr

/-- What a diagnostic says of a configuration that is refused. -/
def ConfigError.message : ConfigError → Text
  | .exclude pattern e => "Invalid glob pattern in 'excludes': \"" ++ pattern ++ "\": " ++ e.message
  | .modulePattern pattern e => "Invalid glob pattern in 'modules': \"" ++ pattern ++ "\": " ++ e.message
  | .locale id e => "Invalid locale in 'locales': \"" ++ id ++ "\": " ++ e.message
  | .defaultLocale id e => "Invalid 'defaultLocale': \"" ++ id ++ "\": " ++ e.message
  | .markupAttribute name => "Invalid 'markupAttribute': \"" ++ name ++ "\""
  | .batchSize => "'batchSize' must be greater than 0"
  | .toolName => "Tool names in 'tools' must not be empty"

namespace Config

/-- What holds where nothing is said. -/
def default : Config where
  locales := ["en_US"]
  defaultLocale := "en_US"
  modules := ["."]
  excludes := ["*/vendor/*", "*/tmp/*", "*/.*"]
  markupAttribute := "gettext"
  batchSize := 100
  tools := .usual

/-! ## Writing and reading -/

/-- A configuration as JSON. -/
def json (c : Config) : JsonValue :=
  let texts (ts : List Text) : JsonValue := .array (ts.map .string)
  .object [
    ("locales", texts c.locales),
    ("defaultLocale", .string c.defaultLocale),
    ("modules", texts c.modules),
    ("excludes", texts c.excludes),
    ("markupAttribute", .string c.markupAttribute),
    ("batchSize", .number (Text.ofNat c.batchSize)),
    ("tools", .object [
      ("xgettext", .string c.tools.xgettext),
      ("msginit", .string c.tools.msginit),
      ("msgmerge", .string c.tools.msgmerge),
      ("msgfmt", .string c.tools.msgfmt)])]

/-- A configuration as a file holds it. -/
def written (c : Config) : Text := c.json.pretty "  " 0

/-- What a value has for each of some fields: an object by their names, each at most once, an array by their order. -/
def fields? (names : List Text) : JsonValue → Option (List (Option JsonValue))
  | .object members =>
    if names.any fun name => 1 < members.countP fun (n, _) => n == name then none
    else some (names.map fun name => Members.get? name members)
  | .array items =>
    if names.length < items.length then none
    else some (items.map some ++ List.replicate (names.length - items.length) none)
  | _ => none

/-- Reads a text. -/
def text? : JsonValue → Option Text
  | .string t => some t
  | _ => none

/-- Reads a list of texts. -/
def texts? : JsonValue → Option (List Text)
  | .array items => items.mapM text?
  | _ => none

/-- The first number that needs more than 64 bits. -/
def countBound : Nat := 18446744073709551616

/-- Reads a count of at most 64 bits. Only a plain row of digits is one. -/
def count? : JsonValue → Option Nat
  | .number spelled =>
    if spelled.all Char.isDigit then
      let n := spelled.foldl (fun n digit => 10 * n + (digit.toNat - '0'.toNat)) 0
      if n < countBound then some n else none
    else none
  | _ => none

/-- Reads a field, which has a default. -/
def fieldOr {α : Type} (read : JsonValue → Option α) (default : α) : Option JsonValue → Option α
  | some value => read value
  | none => some default

/-- Reads the names of the tools. -/
def toolNames? (value : JsonValue) : Option ToolNames := do
  match ← fields? ["xgettext", "msginit", "msgmerge", "msgfmt"] value with
  | [xgettext, msginit, msgmerge, msgfmt] =>
    return ⟨← fieldOr text? ToolNames.usual.xgettext xgettext, ← fieldOr text? ToolNames.usual.msginit msginit,
      ← fieldOr text? ToolNames.usual.msgmerge msgmerge, ← fieldOr text? ToolNames.usual.msgfmt msgfmt⟩
  | _ => none

/-- Reads a configuration. -/
def ofJson? (value : JsonValue) : Option Config := do
  match ← fields? ["locales", "defaultLocale", "modules", "excludes", "markupAttribute", "batchSize", "tools"] value with
  | [locales, defaultLocale, modules, excludes, markupAttribute, batchSize, tools] =>
    return ⟨← fieldOr texts? default.locales locales, ← fieldOr text? default.defaultLocale defaultLocale,
      ← fieldOr texts? default.modules modules, ← fieldOr texts? default.excludes excludes,
      ← fieldOr text? default.markupAttribute markupAttribute, ← fieldOr count? default.batchSize batchSize,
      ← fieldOr toolNames? default.tools tools⟩
  | _ => none

/-- Reads a configuration from the text of its file. -/
def parse? (t : Text) : Option Config := (JsonValue.parse? t).bind ofJson?

/-! ## Checking -/

/-- Whether an entry of the modules has wildcards; without one it is the path of a folder. -/
def isPattern (entry : Text) : Bool := entry.contains '*' || entry.contains '?'

/-- Whether a text can be the name of the attribute that marks texts. -/
def isAttributeName : Text → Bool
  | [] => false
  | c :: rest =>
    (c.isAlpha || c == '_') && rest.all fun c => c.isAlphanum || c == '_' || c == '.' || c == ':' || c == '-'

/-- Refuses with an error. -/
def refuseIf (condition : Bool) (e : ConfigError) : Except ConfigError Unit := if condition then .error e else .ok ()

/-- Refuses a pattern that is none. -/
def checkPattern (fault : GlobError → ConfigError) (pattern : Text) : Except ConfigError Unit :=
  match GlobPattern.parse pattern with
  | .ok _ => .ok ()
  | .error e => .error (fault e)

/-- Refuses the name of a locale that is none. -/
def checkLocale (fault : LocaleError → ConfigError) (id : Text) : Except ConfigError Unit :=
  match Locale.parse id with
  | .ok _ => .ok ()
  | .error e => .error (fault e)

/-- Refuses a configuration that makes no sense. -/
def check (c : Config) : Except ConfigError Unit := do
  c.excludes.forM fun p => checkPattern (.exclude p) p
  (c.modules.filter isPattern).forM fun p => checkPattern (.modulePattern p) p
  c.locales.forM fun id => checkLocale (.locale id) id
  checkLocale (.defaultLocale c.defaultLocale) c.defaultLocale
  refuseIf (!isAttributeName c.markupAttribute) (.markupAttribute c.markupAttribute)
  refuseIf (c.batchSize == 0) .batchSize
  refuseIf (c.tools.all.any fun name => name.trim.isEmpty) .toolName

/-- The locales of a configuration. -/
def supportedLocales (c : Config) : Except LocaleError Locales := do
  let source ← Locale.parse c.defaultLocale
  return (← Locales.ofIds c.locales).withDefault source

end Config

end LocalePages
