import LocalePages.Proofs.CallSheets
import LocalePages.Proofs.Templates

/-!
# Extraction and compilation agree on the texts

The texts that a page offers for translation are the same whichever way they are come by (`strings_agree`): those on the call
sheet that extraction makes of the page are those that building registers, and where building tells of no collision, they are
also the texts in the dictionary of the template and those that the catalogs are asked for when the template is localized.
-/

namespace LocalePages

namespace Localization

open Template

/-- The texts that the catalogs are asked for when a template without a collision is localized are those that the page offers, in
order. -/
theorem asked_localize_build {mark domain : Text} {lookup : CatalogLookup} {locale : Locale} {d : Document} {log : Log}
    (log' : Log) (hclear : NoCollision d.displayName log (build ⟨mark, false⟩ domain d log).2) :
    (localize ⟨mark, false⟩ lookup domain locale (build ⟨mark, false⟩ domain d log).1.document
      (build ⟨mark, false⟩ domain d log).1.dictionary log').2.asked = Dictionary.strings (d.offered mark domain) := by
  rw [localize_build, Document.offered, Dictionary.strings, List.map_flatMap]
  exact List.flatMap_congr fun e he => askedFor_builtBindings (owns_build hclear he)

/-- The texts in the dictionary of a template without a collision are those that the page offers. -/
theorem mem_strings_dictionary {mark domain : Text} {d : Document} {log : Log}
    (hclear : NoCollision d.displayName log (build ⟨mark, false⟩ domain d log).2) (x : Text × Text) :
    x ∈ Dictionary.strings (build ⟨mark, false⟩ domain d log).1.dictionary.entries ↔
      x ∈ Dictionary.strings (d.offered mark domain) := by
  have hentries : ∀ y, y ∈ (build ⟨mark, false⟩ domain d log).1.dictionary.entries ↔ y ∈ d.offered mark domain := by
    refine fun y => ⟨fun hy => ?_, fun hy => Dictionary.mem_entries_of_get? (build_owned hclear hy)⟩
    rw [build_dictionary] at hy
    exact (Dictionary.mem_of_mem_registerAll hy).resolve_left List.not_mem_nil
  simp only [Dictionary.strings, List.mem_map, hentries]

/-- The texts on the call sheet for a page, with their domains, are those that building registers. Where building tells of no
collision, they are those in the dictionary of the template, and those that the catalogs are asked for when the template is
localized. -/
theorem strings_agree (mark file domain : Text) (lookup : CatalogLookup) (locale : Locale) (d : Document) (log log' log'' : Log) :
    let sheet := (CallSheet.addPage mark file d .empty log).1
    let built := buildWithTrace ⟨mark, false⟩ domain d log'
    let asked := (localize ⟨mark, false⟩ lookup domain locale built.1.document built.1.dictionary log'').2.asked
    (∀ x, x ∈ sheet.strings domain ↔ x ∈ Dictionary.strings built.2.registered) ∧
      (NoCollision d.displayName log' built.2.log →
        (∀ x, x ∈ sheet.strings domain ↔ x ∈ Dictionary.strings built.1.dictionary.entries) ∧
          ∀ x, x ∈ sheet.strings domain ↔ x ∈ asked) := by
  intro sheet built asked
  have hregistered : built.2.registered = d.offered mark domain := (advances_buildWithTrace mark domain d log').registered
  have hsheet : ∀ x, x ∈ sheet.strings domain ↔ x ∈ Dictionary.strings (d.offered mark domain) :=
    CallSheet.mem_strings_addPage mark file domain d log
  refine ⟨fun x => ?_, fun hclear => ⟨fun x => ?_, fun x => ?_⟩⟩
  · rw [hsheet, hregistered]
  · rw [hsheet]
    exact (mem_strings_dictionary hclear x).symm
  · rw [hsheet, ← asked_localize_build log'' hclear]
    rfl

namespace MixedPageWitness

/-- A page with a tag that has a hash, one that is about nothing, and two for one text in different domains. -/
def page : Document :=
  ⟨[.element (.html "p") [⟨.none, "gettext", ". shop:. alt title#f7ff9e"⟩, ⟨.none, "title", "Ahoj"⟩] [.text " Hello\n"]], none⟩

/-- A catalog that has nothing. -/
def lookup : CatalogLookup := fun _ canonical _ => canonical

/-- The locale of the catalog. -/
def locale : Locale := ⟨"cs", none, "CZ", [], none⟩

/-- No entry of the log for the page tells of a collision: what it has to say starts with another letter. -/
theorem noCollision : NoCollision page.displayName .empty (buildWithTrace ⟨"gettext", false⟩ "app" page .empty).2.log := by
  intro key existing canonical he
  have hlog : ∀ entry ∈ Log.empty.added (buildWithTrace ⟨"gettext", false⟩ "app" page .empty).2.log,
      entry.message[12]? ≠ some 'h' := by
    decide +kernel
  exact hlog _ he rfl

end MixedPageWitness

open MixedPageWitness in
/-- The page of `MixedPageWitness` has no collision, and its text is asked for in both domains, as the call sheet has it. -/
theorem strings_agree_mixed :
    NoCollision page.displayName .empty (buildWithTrace ⟨"gettext", false⟩ "app" page .empty).2.log ∧
      ∀ domain ∈ (["app", "shop"] : List Text), (domain, ("Hello" : Text)) ∈
        (localize ⟨"gettext", false⟩ lookup "app" locale (buildWithTrace ⟨"gettext", false⟩ "app" page .empty).1.document
          (buildWithTrace ⟨"gettext", false⟩ "app" page .empty).1.dictionary .empty).2.asked := by
  refine ⟨noCollision, fun domain hdomain => ?_⟩
  have hsheet : ∀ domain ∈ (["app", "shop"] : List Text), (domain, ("Hello" : Text)) ∈
      (CallSheet.addPage "gettext" "page.html" page .empty .empty).1.strings "app" := by
    decide +kernel
  exact (((strings_agree "gettext" "page.html" "app" lookup locale page .empty .empty .empty).2 noCollision).2 _).1
    (hsheet domain hdomain)

end Localization

end LocalePages
