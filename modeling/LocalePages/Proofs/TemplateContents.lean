import LocalePages.Proofs.Building

/-!
# What building leaves in markers, dictionary and log

The texts that a page offers are its tags without a hash that are about something, in order. Building puts the first text of each
key into the dictionary, gives each of these tags its hash, and leaves markers that are read back as they are. Its errors are the
words of markers that are no tags, the tags that have a hash, and the texts that do not own their keys
(`Template.build_contents`).
-/

namespace LocalePages

namespace Template

/-! ## Markers -/

/-- What building makes of the bindings of an element: those without a hash in order, and each that offers a text gets its hash. -/
theorem builtBindings_eq (mark domain : Text) (e : Element) :
    builtBindings mark e =
      ((e.bindings mark).filter fun a => a.hash.isNone).map fun a =>
        { a with hash := (offered? domain e a).map fun x => x.1.hash } := by
  rw [builtBindings, ← List.filterMap_eq_map, List.filterMap_filter]
  refine List.filterMap_congr fun a _ => ?_
  rcases builtBinding_cases e a domain with ⟨hhash, hbuilt, -⟩ | ⟨hhash, -, hbuilt, hoffered⟩ | ⟨hhash, -, hbuilt, hoffered⟩
  · simp [hbuilt, hhash]
  · obtain ⟨own, k, hash⟩ := a
    obtain rfl : hash = none := hhash
    simp [hbuilt, hoffered]
  · simp [hbuilt, hhash, hoffered, keyOf]

/-! ## Pages -/

/-- What building a page leaves. The dictionary has the first text of each key that the page offers, and nothing else. Hashes are
six digits. The marker of each annotated element is read back without a word in the log as the element's tags without a hash, in
order, where exactly those that offer a text have got its hash. An error is logged for each word of a marker that is no tag, for
each tag that has a hash, and for each text that the page offers which does not own its key. -/
theorem build_contents (mark domain : Text) (d : Document) (log : Log) :
    let built := build ⟨mark, false⟩ domain d log
    let texts := d.offered mark domain
    ((built.1.dictionary.entries.map Prod.fst).Nodup ∧
        ∀ k t, (k, t) ∈ built.1.dictionary.entries ↔ texts.lookup k = some t) ∧
      (∀ x ∈ texts, x.1.hash.length = 6 ∧ ∀ c ∈ x.1.hash, c ∈ Digest.digits) ∧
      List.Forall₂ (fun e f => ∀ log, ∃ tags, Tag.ofMarker (f.marker mark) log = (tags, log) ∧
          tags.map Tag.binding =
            ((e.bindings mark).filter fun a => a.hash.isNone).map fun a =>
              { a with hash := (offered? domain e a).map fun x => x.1.hash })
        (d.annotated mark) (built.1.document.annotated mark) ∧
      built.2.count .error =
        log.count .error + ((d.annotated mark).flatMap (misplaced mark)).length + built.1.dictionary.displaced texts := by
  intro built texts
  have hdictionary : built.1.dictionary = Dictionary.empty.registerAll texts := build_dictionary mark domain d log
  have hnodup : (built.1.dictionary.entries.map Prod.fst).Nodup := by
    rw [hdictionary]
    exact Dictionary.nodup_registerAll (d := .empty) List.nodup_nil texts
  refine ⟨⟨hnodup, fun k t => ?_⟩, fun x hx => ?_, ?_, ?_⟩
  · rw [Dictionary.mem_entries_iff hnodup, hdictionary, Dictionary.get?_registerAll]
    rfl
  · obtain ⟨e, -, hx⟩ := List.mem_flatMap.1 hx
    obtain ⟨a, -, hx⟩ := List.mem_filterMap.1 hx
    obtain ⟨-, -, rfl⟩ := offered?_eq_some_iff.1 hx
    exact ⟨length_textHash _, fun _ => mem_digits_of_mem_textHash⟩
  · rw [annotated_build, List.forall₂_map_right_iff, List.forall₂_same]
    intro e he log
    have hread := Tag.ofMarker_writtenAll (fun _ => readable_of_mem_builtBindings) (nodup_builtBindings mark e) log
    rw [Element.marker_built (List.mem_filter.1 he).2]
    refine ⟨_, hread, ?_⟩
    rw [← builtBindings_eq, List.map_map]
    exact List.map_id _
  · exact (counts_buildWithTrace mark domain d log).count

namespace SharedTextWitness

/-- A page with one text in two domains, a word that is no tag, and a tag that has a hash. -/
def page : Document :=
  ⟨[.element (.html "p") [⟨.none, "gettext", ". ! title#f7ff9e"⟩] [.text "Hello"],
    .element (.html "b") [⟨.none, "gettext", "shop:."⟩] [.text " Hello "]], none⟩

/-- The text in the second domain, with its key. -/
def greeting : DictionaryKey × Text := (⟨"shop", "f7ff9e"⟩, "Hello")

end SharedTextWitness

open SharedTextWitness in
/-- The page of `SharedTextWitness` offers its text in both domains, and two errors are logged. -/
theorem build_contents_hello :
    greeting ∈ page.offered "gettext" "app" ∧ greeting.1.hash.length = 6 ∧
      greeting ∈ (build ⟨"gettext", false⟩ "app" page .empty).1.dictionary.entries ∧
      (build ⟨"gettext", false⟩ "app" page .empty).2.count .error = 2 := by
  obtain ⟨⟨-, hentries⟩, hdigits, -, hcount⟩ := build_contents "gettext" "app" page .empty
  have hoffered : greeting ∈ page.offered "gettext" "app" := by decide +kernel
  have hfirst : (page.offered "gettext" "app").lookup greeting.1 = some greeting.2 := by decide +kernel
  have herrors : Log.empty.count .error + ((page.annotated "gettext").flatMap (misplaced "gettext")).length +
      (build ⟨"gettext", false⟩ "app" page .empty).1.dictionary.displaced (page.offered "gettext" "app") = 2 := by
    decide +kernel
  exact ⟨hoffered, (hdigits greeting hoffered).1, (hentries _ _).2 hfirst, hcount.trans herrors⟩

end Template

end LocalePages
