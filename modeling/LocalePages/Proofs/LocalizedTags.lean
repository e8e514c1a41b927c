import LocalePages.Proofs.SilentPasses
import LocalePages.Proofs.UntouchedNodes

/-!
# What becomes of tags

Localizing a page loses no tag and no text of the dictionary, and what it adds to either is the hash of what a tag was about
(`Localization.localize_only_adds`). Its errors are those of the markers that it visits: one for each word that is no tag, and one
for each tag with a hash that is unknown when its turn comes. Such a tag and what it is about stay as they are
(`Localization.errors_localize`).
-/

namespace LocalePages

namespace Localization

open Template

/-! ## Elements -/

section

variable (mark : Text) (s : Setting) (e : Element) (p : Progress)

/-- The marker that localizing leaves has what becomes of the bindings. -/
theorem marker_of_localizeElement {f : Element} (hf : f.attrs = (localizeElement mark s e p).1.attrs) :
    f.marker mark = Binding.writtenAll ((turnsOf mark s e p).map Turn.binding) := by
  rw [Element.marker, hf, localizeElement_fst]
  simp only [Revision.setMarker, Attrs.get?_set_self, Option.getD_some]

/-- The tags whose turns come are the words of the marker that are tags, each once. -/
theorem map_raw_turnsOf : ((turnsOf mark s e p).map fun u => u.tag.raw) = (Tag.validWords (e.marker mark)).eraseDups := by
  rw [← Tag.map_raw_among, ← Tag.ofMarker_fst _ p.log, ← map_tag_turnsOf mark s, List.map_map]
  rfl

variable {mark s e p}

/-- A tag whose turn comes was read from its own text. -/
theorem readable_of_mem_turnsOf {u : Turn} (hu : u ∈ turnsOf mark s e p) :
    u.tag.binding.Readable ∧ u.tag.raw = u.tag.binding.written := by
  have htag : u.tag ∈ (turnsOf mark s e p).map Turn.tag := List.mem_map_of_mem hu
  rw [map_tag_turnsOf, Tag.ofMarker_fst] at htag
  exact Tag.readable_of_mem_among htag

/-- What becomes of a binding that can be read can be read. -/
theorem Turn.readable_binding {u : Turn} (h : u.tag.binding.Readable) : u.binding.Readable := by
  unfold Turn.binding
  split
  · exact ⟨h.domain, h.keyword, fun hash hhash => Option.some.inj hhash ▸ isWord_textHash u.canonical⟩
  · exact h

/-- The words of the marker that localizing leaves are the bindings of the turns as they are written. -/
theorem words_marker_localizeElement :
    Text.words (((localizeElement mark s e p).1.apply e).marker mark) =
      (turnsOf mark s e p).map fun u => u.binding.written := by
  rw [marker_of_localizeElement mark s e p rfl, Binding.words_writtenAll, List.map_map]
  · rfl
  · intro a ha
    obtain ⟨u, hu, rfl⟩ := List.mem_map.1 ha
    exact Turn.readable_binding (readable_of_mem_turnsOf hu).1

/-- A tag whose hash is not known stays as it is. -/
theorem Turn.Missing.written {u : Turn} (hu : u ∈ turnsOf mark s e p) (h : u.Missing s) : u.binding.written = u.tag.raw := by
  have hbinding : u.binding = u.tag.binding := if_neg fun hand => h.1 hand.1
  rw [hbinding, (readable_of_mem_turnsOf hu).2]

/-- What no written tag is about stays as it is. -/
theorem bound_localizeElement {k : Keyword} (hk : k ≠ .attribute mark) (hunwritten : k ∉ (writesOf mark s e p).map Prod.fst) :
    ((localizeElement mark s e p).1.apply e).bound k = e.bound k := by
  have hlast : lastWrite? (writesOf mark s e p) k = none := Classical.not_not.1 (mt lastWrite?_ne_none_iff.1 hunwritten)
  rw [localizeElement_fst, Revision.apply_setMarker, Element.bound_write_of_ne _ _ hk, Revision.apply_writeAll,
    Revision.apply_keep, Element.bound_writeAll, hlast, Option.getD_none]

/-- What a tag registers is in canonical form and not empty, and its key has its hash. -/
theorem Turn.of_offered? {u : Turn} {x : DictionaryKey × Text} (h : u.offered? s = some x) :
    x.1.hash = textHash x.2 ∧ x.2 ≠ [] ∧ Text.canonical x.2 = x.2 := by
  obtain ⟨-, hne, rfl⟩ := offered?_eq_some_iff.1 h
  exact ⟨rfl, hne, Text.canonical_canonical _⟩

end

/-! ## Pages -/

section

variable (scanner : Scanner) (lookup : CatalogLookup) (domain : Text) (locale : Locale) (d : Document) (dictionary : Dictionary)
  (log : Log)

/-- What localizing a page registers is what the tags at their turns offer, visit by visit. -/
theorem dictionary_localize :
    let s := settingFor lookup domain locale (scanner.prepare d)
    let vs := Node.visits scanner.mark (localizeElement scanner.mark s) (scanner.prepare d).nodes ⟨dictionary, log, []⟩
    (localize scanner lookup domain locale d dictionary log).2.dictionary =
      dictionary.registerAll
        (vs.flatMap fun v => (turnsOf scanner.mark s v.element v.state).filterMap (Turn.offered? s)) :=
  Node.sweepAll_snd_of_visits Progress.dictionary (fun _ => rfl) Dictionary.registerAll_append
    (fun v => dictionary_localizeElement scanner.mark _ v.element v.state) _ _

/-- The errors of localizing a page are those of the elements that it visits. -/
theorem messages_localize :
    let s := settingFor lookup domain locale (scanner.prepare d)
    let vs := Node.visits scanner.mark (localizeElement scanner.mark s) (scanner.prepare d).nodes ⟨dictionary, log, []⟩
    (localize scanner lookup domain locale d dictionary log).2.log.messages .error =
      log.messages .error ++ (vs.flatMap fun v => errorsOf scanner.mark s v.element v.state).map log.shortened := by
  intro s vs
  have hadded : (localize scanner lookup domain locale d dictionary log).2.log.messages .error =
      log.messages .error ++ vs.flatMap fun v => (errorsOf scanner.mark s v.element v.state).map v.state.log.shortened :=
    Node.sweepAll_snd_of_visits (fun p : Progress => p.log.messages .error) List.append_nil
      (fun _ _ _ => (List.append_assoc _ _ _).symm) (fun v => errors_localizeElement scanner.mark s v.element v.state) _ _
  refine hadded.trans ?_
  rw [List.map_flatMap]
  refine congrArg _ (List.flatMap_congr fun v hv => List.map_congr_left fun message _ => ?_)
  -- the log belongs to the same directory whenever a visit comes
  have hlater : Progress.LeadsTo ⟨dictionary, log, []⟩ v.state :=
    Node.rel_of_mem_visits Progress.LeadsTo.refl Progress.LeadsTo.trans (leadsTo_localizeElement scanner.mark s) hv
  exact Log.shortened_of_extends hlater.log message

/-- Localizing a page loses no tag, changes no hash, and only adds to the dictionary. Each annotated element is visited, and has
the tags of its marker in their order afterwards: a tag that had no hash and was about something at its turn has the hash of that,
and any other is as it was. An entry that is new in the dictionary is a canonical text under its hash. -/
theorem localize_only_adds :
    let page := scanner.prepare d
    let s := settingFor lookup domain locale page
    let vs := Node.visits scanner.mark (localizeElement scanner.mark s) page.nodes ⟨dictionary, log, []⟩
    let out := localize scanner lookup domain locale d dictionary log
    vs.map Node.Visit.element = page.annotated scanner.mark ∧
      (∀ v ∈ vs,
        (turnsOf scanner.mark s v.element v.state).map Turn.tag =
            (Tag.ofMarker (v.element.marker scanner.mark) v.state.log).1 ∧
          ((localizeElement scanner.mark s v.element v.state).1.apply v.element).marker scanner.mark =
            Binding.writtenAll ((turnsOf scanner.mark s v.element v.state).map Turn.binding) ∧
          ((∀ u ∈ vs, .text ∈ writtenBy scanner.mark s u → ¬Node.IsInside u.way v.way) →
            ∃ f : Element, Node.nodeAt? out.1.nodes v.way = some f.node ∧
              f.marker scanner.mark = Binding.writtenAll ((turnsOf scanner.mark s v.element v.state).map Turn.binding))) ∧
      (∀ k t, dictionary.get? k = some t → out.2.dictionary.get? k = some t) ∧
      ∀ x ∈ out.2.dictionary.entries,
        x ∈ dictionary.entries ∨ (x.1.hash = textHash x.2 ∧ x.2 ≠ [] ∧ Text.canonical x.2 = x.2) := by
  intro page s vs out
  have hdictionary := dictionary_localize scanner lookup domain locale d dictionary log
  refine ⟨Node.map_element_visits _ _ _ _, fun v hv => ⟨?_, ?_, fun hout => ?_⟩, fun k t ht => ?_, fun x hx => ?_⟩
  · exact map_tag_turnsOf scanner.mark s v.element v.state
  · exact marker_of_localizeElement scanner.mark s v.element v.state rfl
  · obtain ⟨inside, -, hat⟩ := Node.nodeAt?_sweepAll_of_mem_visits hv fun u hu htext =>
      hout u hu ((text_localizeElement_ne_none_iff scanner.mark s u).1 htext)
    exact ⟨⟨v.element.name, (localizeElement scanner.mark s v.element v.state).1.attrs, _⟩, hat,
      marker_of_localizeElement scanner.mark s v.element v.state rfl⟩
  · rw [hdictionary]
    exact Dictionary.get?_registerAll_of_some _ ht
  · rw [hdictionary] at hx
    refine (Dictionary.mem_of_mem_registerAll hx).imp_right fun hx => ?_
    obtain ⟨v, -, hv⟩ := List.mem_flatMap.1 hx
    obtain ⟨u, -, hu⟩ := List.mem_filterMap.1 hv
    exact Turn.of_offered? hu

end

namespace StrangeTextWitness

/-- An element with a word that is no tag, a text without a hash, an attribute whose hash is known, and one whose hash is not. -/
def element : Element :=
  ⟨.html "p", [⟨.none, "alt", "Photo"⟩, ⟨.none, "gettext", ". ! title#f7ff9e alt#000000"⟩], [.text "Goodbye"]⟩

/-- A page with the element. -/
def page : Document := ⟨[element.node], none⟩

/-- A dictionary that knows one of the hashes. -/
def dictionary : Dictionary := ⟨[(⟨"app", "f7ff9e"⟩, "Hello")]⟩

/-- A catalog with a translation for every text. -/
def lookup : CatalogLookup := fun _ _ _ => "Ahoj"

/-- The locale of the catalog. -/
def locale : Locale := ⟨"cs", none, "CZ", [], none⟩

/-- What the page is localized with. -/
def setting : Setting := settingFor lookup "app" locale page

/-- The visit to the element. -/
def visit : Node.Visit Progress := ⟨[0], element, ⟨dictionary, .empty, []⟩⟩

/-- The visits on localizing the page. -/
def visits : List (Node.Visit Progress) :=
  Node.visits "gettext" (localizeElement "gettext" setting) page.nodes ⟨dictionary, .empty, []⟩

/-- The element is visited. -/
theorem mem_visits : visit ∈ visits := List.mem_singleton_self visit

/-- The turn of the tag whose hash is not known. -/
def unknown : Turn := (turnsOf "gettext" setting visit.element visit.state).get ⟨2, by decide +kernel⟩

end StrangeTextWitness

open StrangeTextWitness in
/-- The element of `StrangeTextWitness` is not inside one whose text is written, so that its new marker is in the page, and the
dictionary still has what it had. -/
theorem localize_only_adds_goodbye :
    (∀ u ∈ visits, .text ∈ writtenBy "gettext" setting u → ¬Node.IsInside u.way visit.way) ∧
      (∃ f : Element,
        Node.nodeAt? (localize ⟨"gettext", false⟩ lookup "app" locale page dictionary .empty).1.nodes [0] = some f.node ∧
          f.marker "gettext" = ".#b5b29c title#f7ff9e alt#000000") ∧
      (localize ⟨"gettext", false⟩ lookup "app" locale page dictionary .empty).2.dictionary.get? ⟨"app", "f7ff9e"⟩ =
        some "Hello" := by
  obtain ⟨-, hmarkers, hkept, -⟩ := localize_only_adds ⟨"gettext", false⟩ lookup "app" locale page dictionary .empty
  have hout : ∀ u ∈ visits, .text ∈ writtenBy "gettext" setting u → ¬Node.IsInside u.way visit.way := by decide +kernel
  have hwritten : Binding.writtenAll ((turnsOf "gettext" setting visit.element visit.state).map Turn.binding) =
      ".#b5b29c title#f7ff9e alt#000000" := by
    decide +kernel
  obtain ⟨f, hat, hmarker⟩ := (hmarkers visit mem_visits).2.2 hout
  exact ⟨hout, ⟨f, hat, hmarker.trans hwritten⟩, hkept _ _ rfl⟩

/-- The errors of localizing a page are one for each occurrence of a word that is no tag in the marker of an annotated element, and
one for each of its tags that has a hash which the dictionary does not know at the turn of the tag. Such a tag stands unchanged at
its place in the marker, and what it is about stays as it is, unless it is the marker or a written tag of the element is about
the same. -/
theorem errors_localize (scanner : Scanner) (lookup : CatalogLookup) (domain : Text) (locale : Locale) (d : Document)
    (dictionary : Dictionary) (log : Log) :
    let page := scanner.prepare d
    let s := settingFor lookup domain locale page
    let vs := Node.visits scanner.mark (localizeElement scanner.mark s) page.nodes ⟨dictionary, log, []⟩
    let out := localize scanner lookup domain locale d dictionary log
    vs.map Node.Visit.element = page.annotated scanner.mark ∧
      out.2.log.messages .error =
        log.messages .error ++ (vs.flatMap fun v => errorsOf scanner.mark s v.element v.state).map log.shortened ∧
      ∀ v ∈ vs,
        ((turnsOf scanner.mark s v.element v.state).map fun u => u.tag.raw) =
            (Tag.validWords (v.element.marker scanner.mark)).eraseDups ∧
          ∀ (i : Nat) (u : Turn), (turnsOf scanner.mark s v.element v.state)[i]? = some u → u.Missing s →
            (Text.words (((localizeElement scanner.mark s v.element v.state).1.apply v.element).marker scanner.mark))[i]? =
                some u.tag.raw ∧
              (u.tag.binding.keyword ≠ .attribute scanner.mark → u.tag.binding.keyword ∉ writtenBy scanner.mark s v →
                ((localizeElement scanner.mark s v.element v.state).1.apply v.element).bound u.tag.binding.keyword =
                  v.element.bound u.tag.binding.keyword) := by
  intro page s vs out
  refine ⟨Node.map_element_visits _ _ _ _, messages_localize scanner lookup domain locale d dictionary log, fun v _ =>
    ⟨map_raw_turnsOf scanner.mark s v.element v.state, fun i u hu hmissing => ⟨?_, bound_localizeElement⟩⟩⟩
  rw [words_marker_localizeElement, List.getElem?_map, hu, Option.map_some, hmissing.written (List.mem_of_getElem? hu)]

open StrangeTextWitness in
/-- The hash of the last tag of `StrangeTextWitness` is not known at its turn, and what the tag is about stays as it is. -/
theorem errors_localize_unknown :
    unknown.Missing setting ∧ unknown.tag.binding.keyword ≠ .attribute "gettext" ∧
      unknown.tag.binding.keyword ∉ writtenBy "gettext" setting visit ∧
      ((localizeElement "gettext" setting visit.element visit.state).1.apply visit.element).bound unknown.tag.binding.keyword =
        visit.element.bound unknown.tag.binding.keyword := by
  have hmissing : unknown.Missing setting := by decide +kernel
  have hkeyword : unknown.tag.binding.keyword ≠ .attribute "gettext" := by decide +kernel
  have hunwritten : unknown.tag.binding.keyword ∉ writtenBy "gettext" setting visit := by decide +kernel
  have hturn : (turnsOf "gettext" setting visit.element visit.state)[2]? = some unknown := List.getElem?_eq_getElem _
  obtain ⟨-, -, hvisits⟩ := errors_localize ⟨"gettext", false⟩ lookup "app" locale page dictionary .empty
  have hkept := ((hvisits visit mem_visits).2 2 unknown hturn hmissing).2
  exact ⟨hmissing, hkeyword, hunwritten, hkept hkeyword hunwritten⟩

end Localization

end LocalePages
