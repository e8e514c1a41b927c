import LocalePages.Proofs.Localizing

/-!
# What localizing does to a template

After building, every hash is known and every tag without a hash is about nothing, and so are all other tags for the same
keyword. An element of a template is thus calm, whatever the catalogs say (`Localization.calm_built`), and localizing a template
keeps its dictionary and its log (`Localization.localize_build`). What localizing leaves of an element is calm and settled
(`Localization.calm_localized`, `Localization.settled_localized`): no text that is written gets into what a tag without a hash is
about.
-/

namespace LocalePages

/-- A built element as localizing leaves it, with all that is inside it. -/
def Element.localized (mark : Text) (s : Localization.Setting) (dictionary : Dictionary) (e : Element) : Element :=
  (e.built mark).revised mark (Localization.shownRevision mark s dictionary)

namespace Localization

open Template

/-- A dictionary knows the keys of texts. -/
def Knows (dictionary : Dictionary) (texts : List (DictionaryKey × Text)) : Prop :=
  ∀ x ∈ texts, (dictionary.get? x.1).isSome

section

variable {mark : Text} {s : Setting} {dictionary : Dictionary} {e : Element}

/-! ## Bindings of a template -/

/-- Where one binding for a keyword has no hash, no other one has. -/
theorem hash_eq_none_of_keyword {a b : Binding} (ha : a ∈ builtBindings mark e) (hb : b ∈ builtBindings mark e)
    (hhash : a.hash = none) (hk : b.keyword = a.keyword) : b.hash = none := by
  cases hother : b.hash with
  | none => rfl
  | some hash =>
    have hblank := (canonical_of_mem_builtBindings ha hhash).1
    exact absurd (hk ▸ hblank) (mem_offeredBy_of_mem_builtBindings [] hb hother).1

/-- A dictionary that knows the texts of an element knows the hashes of its built bindings. -/
theorem resolves_builtBindings (h : Knows dictionary (offeredBy mark s.domain e)) :
    Resolves s.domain dictionary (builtBindings mark e) := by
  intro a ha hsome
  obtain ⟨hash, hhash⟩ := Option.isSome_iff_exists.1 hsome
  have hknown := h _ (mem_offeredBy_of_mem_builtBindings s.domain ha hhash).2
  rw [resolved?, hhash]
  exact hknown

/-- Only a keyword that an element is about something for is shown. -/
theorem lastWrite?_shown_builtBindings {k : Keyword} (h : e.canonical k = []) :
    lastWrite? (shown s dictionary (builtBindings mark e)) k = none := by
  refine lastWrite?_shown_eq_none fun a ha hk => ?_
  cases hhash : a.hash with
  | none => rfl
  | some hash => exact absurd (hk ▸ h) (mem_offeredBy_of_mem_builtBindings [] ha hhash).1

/-- An element with the marker of a built one is calm when its tags without a hash are about nothing. -/
theorem calm_of_marker {f : Element} (hknown : Knows dictionary (offeredBy mark s.domain e))
    (hmarker : f.marker mark = Binding.writtenAll (builtBindings mark e))
    (hblank : ∀ a ∈ builtBindings mark e, a.hash = none → f.canonical a.keyword = []) : Calm mark s dictionary f := by
  have hread : ∀ a ∈ builtBindings mark e, a.Readable := fun _ => readable_of_mem_builtBindings
  have hbindings := Element.bindings_of_marker hread (nodup_builtBindings mark e) hmarker
  refine ⟨?_, ?_, fun log => ?_⟩
  · rw [hbindings]
    exact quiet_of_blank fun a ha hhash => ⟨hblank a ha hhash, fun b hb hk => hash_eq_none_of_keyword ha hb hhash hk⟩
  · rw [hbindings]
    exact resolves_builtBindings hknown
  · rw [hmarker, Tag.ofMarker_writtenAll hread (nodup_builtBindings mark e)]

/-! ## Elements of a template -/

/-- Building leaves an annotated element annotated, with all that is inside it built. -/
theorem has_built (hm : e.attrs.has mark = true) : (e.built mark).attrs.has mark = true := by
  simp only [Element.built, Element.revised, hm, if_true, has_builtRevision]

/-- The bindings of a built element are those that building makes. -/
theorem bindings_built (hm : e.attrs.has mark = true) : (e.built mark).bindings mark = builtBindings mark e :=
  Element.bindings_of_marker (fun _ => readable_of_mem_builtBindings) (nodup_builtBindings mark e) (Element.marker_built hm)

/-- A built element is calm. -/
theorem calm_built (hm : e.attrs.has mark = true) (hknown : Knows dictionary (offeredBy mark s.domain e)) :
    Calm mark s dictionary (e.built mark) := by
  refine calm_of_marker hknown (Element.marker_built hm) fun a ha hhash => ?_
  obtain ⟨hblank, hk⟩ := canonical_of_mem_builtBindings ha hhash
  rw [Element.canonical, Element.bound_built hk]
  exact hblank

/-! ## Elements of a localized template -/

/-- An element without text has no text inside that is shown. -/
theorem text_shownRevision_of_blank {nodes : List Node} (h : ∀ c ∈ Node.textContentsAll nodes, isBlank c = true) :
    ∀ f ∈ Node.annotatedAll mark (Node.revisedAll mark (builtRevision mark) nodes),
      (shownRevision mark s dictionary f).text = none := by
  intro f hf
  obtain ⟨e, he, rfl⟩ := Node.exists_of_mem_annotatedAll_revisedAll hf
  have hm : e.attrs.has mark = true := (List.mem_filter.1 he).2
  have hblank : e.canonical .text = [] :=
    Text.canonical_eq_nil_iff.2 fun c hc => h c (Node.mem_textContentsAll_of_mem_annotatedAll he hc)
  have hunwritten : lastWrite? (shown s dictionary ((e.built mark).bindings mark)) .text = none := by
    rw [bindings_built hm]
    exact lastWrite?_shown_builtBindings hblank
  rw [shownRevision, Revision.setMarker, Revision.text_writeAll, ← Element.built, hunwritten]
  rfl

/-- A tag without a hash is about nothing after a built element was localized, too. -/
theorem canonical_localized (hm : e.attrs.has mark = true) {a : Binding} (ha : a ∈ builtBindings mark e) (hhash : a.hash = none) :
    (e.localized mark s dictionary).canonical a.keyword = [] := by
  obtain ⟨hblank, hk⟩ := canonical_of_mem_builtBindings ha hhash
  have hunwritten : lastWrite? (shown s dictionary ((e.built mark).bindings mark)) a.keyword = none := by
    rw [bindings_built hm]
    exact lastWrite?_shown_builtBindings hblank
  rw [← hblank]
  refine congrArg Text.canonical ?_
  rw [← Element.bound_built (e := e) hk]
  generalize a.keyword = k at hblank hk hunwritten
  rcases k with _ | name
  · -- the text of elements inside is blank, too, so that nothing is shown for it
    have hchildren : (e.built mark).children = Node.revisedAll mark (builtRevision mark) e.children := by
      simp only [Element.built, Element.revised, hm, if_true]
      rfl
    rw [Element.localized, Element.bound, children_revised_shownRevision (has_built hm) hunwritten, Element.bound, hchildren]
    exact Node.textContentsAll_revisedAll (text_shownRevision_of_blank (Text.canonical_eq_nil_iff.1 hblank))
  · exact bound_revised_shownRevision (has_built hm) (fun h => hk (congrArg _ h)) hunwritten

/-- Localizing a built element leaves its marker. -/
theorem marker_localized (hm : e.attrs.has mark = true) :
    (e.localized mark s dictionary).marker mark = Binding.writtenAll (builtBindings mark e) := by
  rw [Element.localized, marker_revised_shownRevision (has_built hm), bindings_built hm]

/-- What localizing leaves of a built element is calm. -/
theorem calm_localized (hm : e.attrs.has mark = true) (hknown : Knows dictionary (offeredBy mark s.domain e)) :
    Calm mark s dictionary (e.localized mark s dictionary) :=
  calm_of_marker hknown (marker_localized hm) fun _ ha hhash => canonical_localized hm ha hhash

/-- What localizing leaves of a built element is settled. -/
theorem settled_localized (hm : e.attrs.has mark = true) (hknown : Knows dictionary (offeredBy mark s.domain e)) :
    Settled mark s dictionary (e.localized mark s dictionary) := by
  have hread : ∀ a ∈ builtBindings mark e, a.Readable := fun _ => readable_of_mem_builtBindings
  have hbindings : (e.localized mark s dictionary).bindings mark = builtBindings mark e :=
    Element.bindings_of_marker hread (nodup_builtBindings mark e) (marker_localized hm)
  refine ⟨?_, (calm_localized hm hknown).quiet, fun k t hk ht => ?_⟩
  · rw [marker_localized hm, Binding.nodup_words_writtenAll_iff hread]
    exact nodup_builtBindings mark e
  · rw [hbindings, ← bindings_built hm] at ht
    exact write_revised_shownRevision (has_built hm) hk ht

/-! ## Templates without a collision -/

/-- A dictionary has texts under their keys. -/
def Owns (dictionary : Dictionary) (texts : List (DictionaryKey × Text)) : Prop := ∀ x ∈ texts, dictionary.get? x.1 = some x.2

/-- Where the texts of an element own their keys, its built bindings stand for these texts. -/
theorem filterMap_resolved?_builtBindings {β : Type} {domain : Text} (f : Option Text → Keyword → Text → β)
    (h : Owns dictionary (offeredBy mark domain e)) :
    ((builtBindings mark e).filterMap fun b => (resolved? domain dictionary b).map (f b.domain b.keyword)) =
      (e.bindings mark).filterMap fun a => (offered? domain e a).map fun x => f a.domain a.keyword x.2 := by
  rw [builtBindings, List.filterMap_filterMap]
  refine List.filterMap_congr fun a ha => ?_
  rcases builtBinding_cases e a domain with ⟨-, hbuilt, hoffered⟩ | ⟨hhash, -, hbuilt, hoffered⟩ | ⟨-, -, hbuilt, hoffered⟩
  · rw [hbuilt, hoffered]
    rfl
  · rw [hbuilt, hoffered, Option.bind_some, resolved?, hhash]
    rfl
  · have howned := h _ (List.mem_filterMap.2 ⟨a, ha, hoffered⟩)
    rw [hbuilt, hoffered, Option.bind_some, resolved?, Option.bind_some]
    exact congrArg _ howned

/-- Where the texts of an element own their keys, its built bindings ask for these texts. -/
theorem askedFor_builtBindings {domain : Text} (h : Owns dictionary (offeredBy mark domain e)) :
    askedFor domain dictionary (builtBindings mark e) = Dictionary.strings (offeredBy mark domain e) := by
  have hstrings : Dictionary.strings (offeredBy mark domain e) =
      (e.bindings mark).filterMap fun a => (offered? domain e a).map fun x => (a.domainOr domain, x.2) := by
    rw [Dictionary.strings, offeredBy, List.map_filterMap]
    refine List.filterMap_congr fun a _ => Option.map_congr fun x hx => ?_
    rw [(offered?_eq_some_iff.1 hx).2.2]
    rfl
  rw [hstrings]
  exact filterMap_resolved?_builtBindings (fun own _ canonical => (own.getD domain, canonical)) h

/-- Where the texts of an element own their keys, its built bindings show what the catalogs say of these texts. -/
theorem shown_builtBindings (h : Owns dictionary (offeredBy mark s.domain e)) :
    shown s dictionary (builtBindings mark e) =
      (e.bindings mark).filterMap fun a => (offered? s.domain e a).map fun x =>
        (a.keyword, s.lookup (a.domainOr s.domain) x.2 s.locale) :=
  filterMap_resolved?_builtBindings (fun own k canonical => (k, s.lookup (own.getD s.domain) canonical s.locale)) h

/-- What is shown for a keyword that an element is about something for is what the catalogs say in the domain of its last binding
without a hash. -/
theorem lastWrite?_shown_of_owns {k : Keyword} {a : Binding} (h : Owns dictionary (offeredBy mark s.domain e))
    (hk : e.canonical k ≠ []) (ha : ((e.bindings mark).filter fun b => b.hash.isNone && b.keyword == k).getLast? = some a) :
    lastWrite? (shown s dictionary (builtBindings mark e)) k =
      some (s.lookup (a.domainOr s.domain) (e.canonical k) s.locale) := by
  have hwrites : ∀ as : List Binding,
      (as.filterMap fun a => (offered? s.domain e a).map fun x =>
          (a.keyword, s.lookup (a.domainOr s.domain) x.2 s.locale)).filter (fun w => w.1 = k) =
        (as.filter fun b => b.hash.isNone && b.keyword == k).map fun b =>
          (k, s.lookup (b.domainOr s.domain) (e.canonical k) s.locale) := by
    intro as
    induction as with
    | nil => rfl
    | cons b as ih =>
      rcases builtBinding_cases e b s.domain with ⟨hhash, -, hoffered⟩ | ⟨hhash, hblank, -, hoffered⟩ | ⟨hhash, hne, -, hoffered⟩
      · simp [hoffered, hhash, ih]
      · have hother : b.keyword ≠ k := fun hb => hk (hb ▸ hblank)
        simp [hoffered, hother, ih]
      · by_cases hb : b.keyword = k
        · simp [hoffered, hhash, hb, ih]
        · simp [hoffered, hb, ih]
  rw [shown_builtBindings h, lastWrite?, hwrites, List.getLast?_map, ha]
  rfl

end

/-! ## Templates -/

section

variable {mark domain : Text} {lookup : CatalogLookup} {locale : Locale} {d : Document} {log : Log}

/-- The dictionary of a template knows the texts that each element of the page offers. -/
theorem knows_build {e : Element} (he : e ∈ d.annotated mark) :
    Knows (build ⟨mark, false⟩ domain d log).1.dictionary (offeredBy mark domain e) := by
  intro x hx
  rw [build_dictionary]
  exact Dictionary.isSome_get?_registerAll _ (List.mem_flatMap.2 ⟨e, he, hx⟩)

/-- Where the log tells of no collision, the texts that each element of the page offers own their keys. -/
theorem owns_build {e : Element} (h : NoCollision d.displayName log (build ⟨mark, false⟩ domain d log).2)
    (he : e ∈ d.annotated mark) : Owns (build ⟨mark, false⟩ domain d log).1.dictionary (offeredBy mark domain e) :=
  fun _ hx => build_owned h (List.mem_flatMap.2 ⟨e, he, hx⟩)

/-- Localizing a template writes what its elements show, and keeps its dictionary and the log. -/
theorem localize_build (mark domain : Text) (lookup : CatalogLookup) (locale : Locale) (d : Document) (log log' : Log) :
    localize ⟨mark, false⟩ lookup domain locale (build ⟨mark, false⟩ domain d log).1.document
        (build ⟨mark, false⟩ domain d log).1.dictionary log' =
      ((d.revised mark (builtRevision mark)).revised mark
          (shownRevision mark (settingFor lookup domain locale d) (build ⟨mark, false⟩ domain d log).1.dictionary),
        ⟨(build ⟨mark, false⟩ domain d log).1.dictionary, log',
          (d.annotated mark).flatMap fun e =>
            askedFor domain (build ⟨mark, false⟩ domain d log).1.dictionary (builtBindings mark e)⟩) := by
  generalize ht : (build ⟨mark, false⟩ domain d log).1.dictionary = dictionary
  have hknown : ∀ e ∈ d.annotated mark, Knows dictionary (offeredBy mark domain e) := ht ▸ fun _ he => knows_build he
  have hcalm : ∀ f ∈ (build ⟨mark, false⟩ domain d log).1.document.annotated mark,
      Calm mark (settingFor lookup domain locale d) dictionary f := by
    intro f hf
    rw [annotated_build] at hf
    obtain ⟨e, he, rfl⟩ := List.mem_map.1 hf
    exact calm_built (List.mem_filter.1 he).2 (hknown e he)
  have hasked : ((d.annotated mark).map (Element.built mark)).flatMap (fun f => askedFor domain dictionary (f.bindings mark)) =
      (d.annotated mark).flatMap fun e => askedFor domain dictionary (builtBindings mark e) := by
    rw [List.flatMap_map]
    exact List.flatMap_congr fun e he => by rw [bindings_built (List.mem_filter.1 he).2]
  rw [build_document] at hcalm ⊢
  rw [localize_of_calm log' hcalm, ← hasked, ← annotated_build mark domain d log, build_document]
  rfl

/-- An annotated element of a localized template is what localizing leaves of an element of the page, built. -/
theorem exists_of_mem_annotated_localize_build {log' : Log} {f : Element}
    (hf : f ∈ (localize ⟨mark, false⟩ lookup domain locale (build ⟨mark, false⟩ domain d log).1.document
      (build ⟨mark, false⟩ domain d log).1.dictionary log').1.annotated mark) :
    ∃ e ∈ d.annotated mark,
      f = e.localized mark (settingFor lookup domain locale d) (build ⟨mark, false⟩ domain d log).1.dictionary := by
  rw [localize_build] at hf
  obtain ⟨e₁, he₁, rfl⟩ := Node.exists_of_mem_annotatedAll_revisedAll hf
  obtain ⟨e, he, rfl⟩ := Node.exists_of_mem_annotatedAll_revisedAll he₁
  exact ⟨e, he, rfl⟩

end

end Localization

end LocalePages
