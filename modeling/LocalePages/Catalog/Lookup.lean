import LocalePages.Catalog.Reader
import LocalePages.Disk
import LocalePages.Page.Localization

/-!
# Looking texts up

The catalogs of a domain are the files in the locale folder of a module, one for each locale. A text without a usable form,
or without a catalog to look in, stands for itself. Catalogs are kept after they were read for the first time, so that a file
that changes later changes nothing.
-/

namespace LocalePages

/-- The path of the catalog of a locale. -/
def catalogFile (localeFolder : Text) (l : Locale) : Text := Path.join localeFolder (l.posix ++ ".po")

/-- Why there is no catalog. -/
inductive CatalogLoadError where
  | unreadable (path : Text) (error : DiskError)
  | notCatalog (path : Text) (error : CatalogError)
  deriving DecidableEq, Repr

/-- What a diagnostic says of a catalog that there is not. -/
def CatalogLoadError.message : CatalogLoadError → Text
  | .unreadable path e => "Cannot read catalog: " ++ path ++ ": " ++ e.message
  | .notCatalog path e => "Cannot parse catalog: " ++ path ++ ": " ++ e.message

/-- The catalog that a file holds. -/
def Catalog.load (d : Disk) (path : Text) : Except CatalogLoadError Catalog :=
  match d.readText path with
  | .error e => .error (.unreadable path e)
  | .ok t =>
    match Catalog.parse t with
    | .error e => .error (.notCatalog path e)
    | .ok c => .ok c

/-- What a catalog says of a text; without a usable form the text stands for itself. -/
def Catalog.answer (catalog : Option Catalog) (canonical : Text) : Text :=
  (catalog.bind fun c => c.usableForm? canonical).getD canonical

/-- Modules by name with their locale folders. -/
abbrev ModuleSet := List (Text × Text)

namespace ModuleSet

/-- The locale folder of the first module of a name. -/
def localeFolder? (modules : ModuleSet) (domain : Text) : Option Text :=
  (modules.find? fun (name, _) => name == domain).map Prod.snd

/-- The catalog of a domain for a locale. -/
def catalog? (modules : ModuleSet) (d : Disk) (domain : Text) (l : Locale) : Option Catalog :=
  (modules.localeFolder? domain).bind fun folder => (Catalog.load d (catalogFile folder l)).toOption

/-- What the catalogs on a disk say. -/
def lookup (modules : ModuleSet) (d : Disk) : CatalogLookup := fun domain canonical l =>
  Catalog.answer (modules.catalog? d domain l) canonical

end ModuleSet

/-- The catalogs that were read, by domain and locale. -/
structure CatalogCache where
  loaded : List ((Text × Text) × Option Catalog)

namespace CatalogCache

/-- The cache before anything was looked up. -/
def empty : CatalogCache := ⟨[]⟩

/-- Looks a text up. A catalog is read from the disk only the first time. -/
def lookup (cache : CatalogCache) (modules : ModuleSet) (d : Disk) (domain canonical : Text) (l : Locale) :
    Text × CatalogCache :=
  match cache.loaded.find? fun (key, _) => key == (domain, l.posix) with
  | some (_, catalog) => (Catalog.answer catalog canonical, cache)
  | none =>
    let catalog := modules.catalog? d domain l
    (Catalog.answer catalog canonical, ⟨cache.loaded ++ [((domain, l.posix), catalog)]⟩)

end CatalogCache

end LocalePages
