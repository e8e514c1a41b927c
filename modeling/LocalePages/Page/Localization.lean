import LocalePages.Locale
import LocalePages.Page.Template

/-!
# Localization

Localizing a page writes what the catalogs say into its annotated elements. A tag with a hash is looked up by the text that the
dictionary has for it, never by what the page says now, so that a page can be localized again and again. A tag without a hash
gets the one of its present text. A hash that the dictionary does not know is logged, and its tag and text stay.
-/

namespace LocalePages

/-- What the catalogs say of a canonical text in a domain, for a locale: the text itself where they have nothing for it. -/
abbrev CatalogLookup := Text → Text → Locale → Text

namespace Localization

/-- What localizing goes along with: the dictionary, the log, and the texts that were looked up, in order. -/
structure Progress where
  dictionary : Dictionary
  log : Log
  asked : List (Text × Text)

/-- What all tags of a page are localized with. -/
structure Setting where
  lookup : CatalogLookup
  locale : Locale
  file : Text
  domain : Text

/-- Looks a text up and writes what the catalogs say. -/
def writeTag (s : Setting) (domain canonical : Text) (a : Binding) (r : Revision) (p : Progress) :
    Binding × Revision × Progress :=
  (a, r.write a.keyword (s.lookup domain canonical s.locale), { p with asked := p.asked ++ [(domain, canonical)] })

/-- Localizes one tag of an element whose revision so far is given. -/
def localizeTag (s : Setting) (e : Element) (t : Tag) (r : Revision) (p : Progress) : Binding × Revision × Progress :=
  let a := t.binding
  let domain := a.domainOr s.domain
  match a.hash with
  | some hash =>
    match p.dictionary.get? ⟨domain, hash⟩ with
    | some canonical => writeTag s domain canonical a r p
    | none =>
      (a, r, { p with log := p.log.error (s.file ++ ": " ++ t.raw ++ " not found in dictionary: " ++ (r.apply e).outerHtml ++
        " Was the corresponding string removed from the source file? Remove the tag or restore the string.") })
  | none =>
    let canonical := (r.apply e).canonical a.keyword
    if canonical.isEmpty then (a, r, p)
    else
      let key := Template.keyOf domain canonical
      let (dictionary, outcome) := p.dictionary.register key canonical
      let log := match outcome with
        | .collision existing =>
          p.log.warning (s.file ++ ": " ++ key.written ++ " is already registered as " ++ quoted existing ++ ", not " ++
            quoted canonical)
        | _ => p.log
      writeTag s domain canonical { a with hash := some key.hash } r { p with dictionary, log }

/-- Localizes tags of an element, in order. -/
def localizeTags (s : Setting) (e : Element) : List Tag → Revision → Progress → List Binding × Revision × Progress
  | [], r, p => ([], r, p)
  | t :: rest, r, p =>
    let (a, r, p) := localizeTag s e t r p
    let (more, r, p) := localizeTags s e rest r p
    (a :: more, r, p)

/-- Localizes an element. -/
def localizeElement (mark : Text) (s : Setting) (e : Element) (p : Progress) : Revision × Progress :=
  let (tags, log) := Tag.ofMarker (e.marker mark) p.log
  let (bindings, r, p) := localizeTags s e tags (Revision.keep e) { p with log }
  (r.setMarker mark (Binding.writtenAll bindings), p)

/-- Localizes a document. -/
def localize (scanner : Scanner) (lookup : CatalogLookup) (domain : Text) (locale : Locale) (d : Document)
    (dictionary : Dictionary) (log : Log) : Document × Progress :=
  let d := scanner.prepare d
  let (nodes, p) :=
    Node.sweepAll scanner.mark (localizeElement scanner.mark ⟨lookup, locale, d.displayName, domain⟩) d.nodes
      ⟨dictionary, log, []⟩
  ({ d with nodes }, p)

end Localization

end LocalePages
