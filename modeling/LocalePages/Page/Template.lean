import LocalePages.Dictionary
import LocalePages.Page.Sweep
import LocalePages.Text.Digest
import LocalePages.Text.Quoted

/-!
# Templates

A template is a source page whose tags have their hashes, with the dictionary of the texts they stand for. Building one changes
nothing but markers. A tag that has a hash already does not belong into a source page: it is logged and dropped. A tag that is
about nothing stays as it is, and has no entry.
-/

namespace LocalePages

/-- How annotated elements are found, and whether a page that is looked at gets a declaration of its character set. -/
structure Scanner where
  mark : Text
  charset : Bool
  deriving DecidableEq, Repr

/-- The document that a scanner looks at. -/
def Scanner.prepare (s : Scanner) (d : Document) : Document := if s.charset then d.withCharset else d

/-- A template. -/
structure Template where
  document : Document
  dictionary : Dictionary

namespace Template

/-- What building goes along with: the dictionary, the log, and the texts that were registered, in order. -/
structure Progress where
  dictionary : Dictionary
  log : Log
  registered : List (DictionaryKey × Text)

/-- Where a tag stands: the name of the page for diagnostics, and the domain of tags without one. -/
structure Site where
  file : Text
  domain : Text

/-- The identity of a canonical text in a domain. -/
def keyOf (domain canonical : Text) : DictionaryKey := ⟨domain, textHash canonical⟩

/-- Builds one tag of an element; none when it is dropped. -/
def buildTag (site : Site) (e : Element) (a : Binding) (p : Progress) : Option Binding × Progress :=
  if a.hash.isSome then
    (none, { p with log := p.log.error (site.file ++ ": " ++ a.keyword.written ++ " already translated in source " ++ site.file ++
      ": " ++ e.outerHtml) })
  else
    let canonical := e.canonical a.keyword
    if canonical.isEmpty then (some a, p)
    else
      let key := keyOf (a.domainOr site.domain) canonical
      let (dictionary, outcome) := p.dictionary.register key canonical
      let log := match outcome with
        | .collision existing =>
          p.log.error (site.file ++ ": hash collision for " ++ key.written ++ ": " ++ quoted existing ++ " and " ++
            quoted canonical)
        | _ => p.log
      (some { a with hash := some key.hash }, ⟨dictionary, log, p.registered ++ [(key, canonical)]⟩)

/-- Builds tags of an element, in order. -/
def buildTags (site : Site) (e : Element) : List Tag → Progress → List Binding × Progress
  | [], p => ([], p)
  | t :: rest, p =>
    let (built, p) := buildTag site e t.binding p
    let (more, p) := buildTags site e rest p
    (built.toList ++ more, p)

/-- Builds an element. -/
def buildElement (mark : Text) (site : Site) (e : Element) (p : Progress) : Revision × Progress :=
  let (tags, log) := Tag.ofMarker (e.marker mark) p.log
  let (built, p) := buildTags site e tags { p with log }
  ((Revision.keep e).setMarker mark (Binding.writtenAll built), p)

/-- Builds a document; also gives the texts that were registered on the way. -/
def buildWithTrace (s : Scanner) (domain : Text) (d : Document) (log : Log) : Template × Progress :=
  let d := s.prepare d
  let (nodes, p) := Node.sweepAll s.mark (buildElement s.mark ⟨d.displayName, domain⟩) d.nodes ⟨.empty, log, []⟩
  (⟨{ d with nodes }, p.dictionary⟩, p)

/-- The template of a source page in a domain. -/
def build (s : Scanner) (domain : Text) (d : Document) (log : Log) : Template × Log :=
  let (template, p) := buildWithTrace s domain d log
  (template, p.log)

end Template

end LocalePages
