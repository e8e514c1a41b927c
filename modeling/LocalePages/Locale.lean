import LocalePages.Path
import LocalePages.Text.Blank

/-!
# Locales

A locale is named by a language and a region, with a script, variants and keywords where they are given. Names are read with `_`
or `-` between their parts and in any case; the canonical form is unique. Catalogs are named by language and region alone, and so
are generated pages, with another separator.
-/

namespace LocalePages

/-- Why there is no locale for a text. -/
inductive LocaleError where
  | invalid (value : Text)
  | missingLanguage (value : Text)
  | missingRegion (value : Text)
  | unsupported (value supported : Text)
  | ambiguous (value supported : Text)
  | empty
  deriving DecidableEq, Repr

/-- What a diagnostic says. -/
def LocaleError.message : LocaleError → Text
  | .invalid value => "Invalid locale identifier: '" ++ value ++ "'"
  | .missingLanguage value => "The language is missing in the locale identifier: '" ++ value ++ "'"
  | .missingRegion value => "The region is missing in the locale identifier: '" ++ value ++ "'"
  | .unsupported value supported => "The locale '" ++ value ++ "' is not supported. Supported locales: " ++ supported
  | .ambiguous value supported => "The language '" ++ value ++ "' is ambiguous. Supported locales: " ++ supported
  | .empty => "No supported locales configured"

/-- A locale. Its parts are in canonical case. -/
structure Locale where
  language : Text
  script : Option Text
  region : Text
  variants : List Text
  keywords : Option Text
  deriving DecidableEq, Repr

namespace Locale

/-- Whether a text is made of letters of ASCII, and of a number of them. -/
def isLetters (low high : Nat) (t : Text) : Bool := low ≤ t.length && t.length ≤ high && t.all Char.isAlpha

/-- Whether a text is made of three digits. -/
def isNumber (t : Text) : Bool := t.length == 3 && t.all Char.isDigit

/-- A text with a capital at its start and small letters after it. -/
def titleCase (t : Text) : Text :=
  match Text.lower t with
  | [] => []
  | c :: rest => c.toUpper :: rest

/-- What the parts after the language have told so far. -/
structure Parts where
  script : Option Text
  region : Option Text
  variants : List Text

/-- Takes in one more part; none when it cannot stand there. -/
def Parts.add? (p : Parts) (part : Text) : Option Parts :=
  if p.script.isNone && p.region.isNone && isLetters 4 4 part then some { p with script := some (titleCase part) }
  else if p.region.isNone && (isLetters 2 2 part || isNumber part) then some { p with region := some (Text.upper part) }
  else if p.region.isSome && !part.isEmpty && part.all Char.isAlphanum then
    some { p with variants := p.variants ++ [Text.upper part] }
  else none

/-- A name cut at its keywords: what stands before the first `@`, without the codeset after its first dot, and what stands after
it unless that is empty. -/
def cutKeywords (t : Text) : Text × Option Text :=
  let (base, keywords) := match Text.cutAt? '@' t with
    | some (base, keywords) => (base, if keywords.isEmpty then none else some keywords)
    | none => (t, none)
  match Text.cutAt? '.' base with
  | some (base, _) => (base, keywords)
  | none => (base, keywords)

/-- Reads the name of a locale. -/
def parse (value : Text) : Except LocaleError Locale :=
  let (base, keywords) := cutKeywords value.trim
  match base.splitOnP fun c => c == '_' || c == '-' with
  | [] => .error (.missingLanguage value)
  | language :: rest =>
    if language.isEmpty then .error (.missingLanguage value)
    else if !isLetters 2 8 language then .error (.invalid value)
    else
      match rest.foldlM Parts.add? ⟨none, none, []⟩ with
      | none => .error (.invalid value)
      | some parts =>
        match parts.region with
        | none => .error (.missingRegion value)
        | some region => .ok ⟨Text.lower language, parts.script, region, parts.variants, keywords⟩

/-- The locale that source pages are written in. -/
def standard : Locale := ⟨"en", none, "US", [], none⟩

/-- The name of the locale's catalogs. -/
def posix (l : Locale) : Text := l.language ++ "_" ++ l.region

/-- The name of the locale in the names of generated files. -/
def web (l : Locale) : Text := l.language ++ "-" ++ l.region

/-- A part of a name that may be missing, after its separator. -/
def optionalPart (separator : Char) : Option Text → Text
  | some part => separator :: part
  | none => []

/-- The canonical name, with all parts. -/
def tag (l : Locale) : Text :=
  l.language ++ optionalPart '_' l.script ++ "_" ++ l.region ++ l.variants.flatMap (fun v => '_' :: v) ++
    optionalPart '@' l.keywords

/-- The file name of a page's variant for a locale. -/
def localizedName (l : Locale) (name : Text) : Text :=
  match Path.splitName name with
  | (stem, some extension) => stem ++ "." ++ l.web ++ "." ++ extension
  | (stem, none) => stem ++ "." ++ l.web

/-- The path of a page's variant for a locale. -/
def localizedPath (l : Locale) (path : Text) : Text :=
  Path.withFileName path (l.localizedName ((Path.fileName? path).getD []))

end Locale

/-- The locales of a project, which one is selected, and which one source pages are written in. -/
structure Locales where
  tags : List Locale
  current : Nat
  default : Locale
  current_lt : current < tags.length

namespace Locales

/-- Adds a locale unless there is one of its name. -/
def addNew (tags : List Locale) (l : Locale) : List Locale := if tags.any fun t => t.posix == l.posix then tags else tags ++ [l]

/-- The locales of some names, each once. -/
def parseAll (ids : List Text) : Except LocaleError (List Locale) :=
  ids.foldlM (fun tags id => (Locale.parse id).map (addNew tags)) []

/-- The locales of a project: the first one is selected. -/
def ofIds (ids : List Text) : Except LocaleError Locales :=
  match parseAll ids with
  | .error e => .error e
  | .ok [] => .error .empty
  | .ok (first :: rest) => .ok ⟨first :: rest, 0, Locale.standard, Nat.zero_lt_succ _⟩

/-- The locales with another one for source pages. -/
def withDefault (ls : Locales) (l : Locale) : Locales := { ls with default := l }

/-- The locale that is selected. -/
def selected (ls : Locales) : Locale := ls.tags.get ⟨ls.current, ls.current_lt⟩

/-- Whether there is a locale of this name. -/
def contains (ls : Locales) (l : Locale) : Bool := ls.tags.any fun t => t.posix == l.posix

/-- Whether source pages are written in the locale. -/
def isDefault (ls : Locales) (l : Locale) : Bool := l.posix == ls.default.posix

/-- The locales that pages are generated for. -/
def targets (ls : Locales) : List Locale := ls.tags.filter fun t => !ls.isDefault t

/-- The names of all locales. -/
def listing (ls : Locales) : Text := Text.joinWith ", " (ls.tags.map Locale.tag)

/-- The place of the first locale of a class. -/
def place? (ls : Locales) (p : Locale → Bool) : Option (Fin ls.tags.length) :=
  match h : ls.tags.findIdx? p with
  | some i => some ⟨i, (List.findIdx?_eq_some_iff_getElem.mp h).1⟩
  | none => none

/-- Selects a locale by its name. -/
def select (ls : Locales) (value : Text) : Except LocaleError Locales :=
  match Locale.parse value with
  | .error e => .error e
  | .ok l =>
    match ls.place? fun t => t.posix == l.posix with
    | some i => .ok { ls with current := i.val, current_lt := i.isLt }
    | none => .error (.unsupported value ls.listing)

/-- Selects the only locale of a language. -/
def selectLanguage (ls : Locales) (value : Text) : Except LocaleError Locales :=
  let language := Text.lower value.trim
  if ls.tags.countP (fun t => t.language == language) > 1 then .error (.ambiguous language ls.listing)
  else
    match ls.place? fun t => t.language == language with
    | some i => .ok { ls with current := i.val, current_lt := i.isLt }
    | none => .error (.unsupported language ls.listing)

end Locales

end LocalePages
