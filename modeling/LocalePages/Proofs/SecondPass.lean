import LocalePages.Proofs.SilentPasses
import LocalePages.Proofs.Templates

/-!
# Localizing a page twice

What a second pass leaves as it is are exactly the pages whose elements the first one settled (`localize_twice_eq_iff`). That is
so where the first pass logs nothing and leaves no tag twice in a marker and no tag without a hash that is about something
(`localize_twice_of_silent`), and for every template, which is localized without a word in the log (`localize_template_twice`).
It is not so for every page (`localize_twice_false`): a tag without a hash that is about nothing at its turn stays as it is,
another tag may then show a translation there, and the next pass takes the translation for a text of the source.
-/

namespace LocalePages

namespace Localization

/-- A second pass leaves a page as the first one left it exactly when the first one settled every annotated element: its marker
says nothing twice, none of its tags without a hash is about anything at its turn, and each value that its tags show, with the
dictionary that the first pass left, is there already. -/
theorem localize_twice_eq_iff (mark domain : Text) (lookup : CatalogLookup) (locale : Locale) (d : Document)
    (dictionary : Dictionary) (log log' : Log) :
    let first := localize ⟨mark, false⟩ lookup domain locale d dictionary log
    (localize ⟨mark, false⟩ lookup domain locale first.1 first.2.dictionary log').1 = first.1 ↔
      ∀ e ∈ first.1.annotated mark, Settled mark (settingFor lookup domain locale d) first.2.dictionary e := by
  intro first
  exact localize_eq_self_iff log' fun _ => hasWrittenMarker_of_mem_localize

/-- Where the first pass logs nothing, a second one leaves the page as it is, provided that the first one left no tag twice in a
marker and no tag without a hash that is about something. -/
theorem localize_twice_of_silent {mark domain : Text} {lookup : CatalogLookup} {locale : Locale} {d : Document}
    {dictionary : Dictionary} {log : Log} (log' : Log)
    (hsilent : (localize ⟨mark, false⟩ lookup domain locale d dictionary log).2.log = log)
    (hdistinct : ∀ f ∈ (localize ⟨mark, false⟩ lookup domain locale d dictionary log).1.annotated mark,
      (Text.words (f.marker mark)).Nodup)
    (hblank : ∀ f ∈ (localize ⟨mark, false⟩ lookup domain locale d dictionary log).1.annotated mark,
      ∀ a ∈ f.bindings mark, a.hash = none → f.canonical a.keyword = []) :
    (localize ⟨mark, false⟩ lookup domain locale (localize ⟨mark, false⟩ lookup domain locale d dictionary log).1
        (localize ⟨mark, false⟩ lookup domain locale d dictionary log).2.dictionary log').1 =
      (localize ⟨mark, false⟩ lookup domain locale d dictionary log).1 := by
  refine (localize_eq_self_iff log' fun _ => hasWrittenMarker_of_mem_localize).2 fun f hf => ?_
  exact settled_of_silent hsilent hf (hdistinct f hf) (hblank f hf)

namespace BlankTagWitness

/-- An element with a tag for its title that has no hash, and one that has. -/
def page : Document :=
  ⟨[.element (.html "input") [⟨.none, "gettext", "title shop:title#f7ff9e"⟩, ⟨.none, "title", ""⟩] []], none⟩

/-- The dictionary knows the hash. -/
def dictionary : Dictionary := ⟨[(⟨"shop", "f7ff9e"⟩, "Hello")]⟩

/-- A catalog with one text. -/
def lookup : CatalogLookup := fun _ canonical _ => if canonical = "Hello" then "Ahoj" else canonical

/-- The locale of the catalog. -/
def locale : Locale := ⟨"cs", none, "CZ", [], none⟩

/-- The marker after one pass and after two. -/
theorem markers :
    let first := localize ⟨"gettext", false⟩ lookup "app" locale page dictionary .empty
    let second := localize ⟨"gettext", false⟩ lookup "app" locale first.1 first.2.dictionary first.2.log
    (first.1.annotated "gettext").map (Element.marker · "gettext") = ["title shop:title#f7ff9e"] ∧
      (second.1.annotated "gettext").map (Element.marker · "gettext") = ["title#5bda92 shop:title#f7ff9e"] := by
  decide +kernel

end BlankTagWitness

/-- A second pass is not always without effect: in the page of `BlankTagWitness`, the title is empty when the first tag is read,
and the second tag fills it. -/
theorem localize_twice_false :
    ¬∀ (mark domain : Text) (lookup : CatalogLookup) (locale : Locale) (d : Document) (dictionary : Dictionary) (log : Log),
      (localize ⟨mark, false⟩ lookup domain locale (localize ⟨mark, false⟩ lookup domain locale d dictionary log).1
          (localize ⟨mark, false⟩ lookup domain locale d dictionary log).2.dictionary
          (localize ⟨mark, false⟩ lookup domain locale d dictionary log).2.log).1 =
        (localize ⟨mark, false⟩ lookup domain locale d dictionary log).1 := by
  intro h
  have hpage := h "gettext" "app" BlankTagWitness.lookup BlankTagWitness.locale BlankTagWitness.page
    BlankTagWitness.dictionary .empty
  obtain ⟨hfirst, hsecond⟩ := BlankTagWitness.markers
  rw [hpage, hfirst] at hsecond
  exact absurd hsecond (by decide)

/-- A template is localized without a new entry in the log or in its dictionary, collisions or not, and localizing it once more
changes neither the page nor the dictionary nor the log. -/
theorem localize_template_twice (mark domain : Text) (lookup : CatalogLookup) (locale : Locale) (d : Document) (log log' : Log) :
    let template := (Template.build ⟨mark, false⟩ domain d log).1
    let first := localize ⟨mark, false⟩ lookup domain locale template.document template.dictionary log'
    let second := localize ⟨mark, false⟩ lookup domain locale first.1 first.2.dictionary first.2.log
    (first.2.dictionary = template.dictionary ∧ first.2.log = log') ∧
      second.1 = first.1 ∧ second.2.dictionary = first.2.dictionary ∧ second.2.log = first.2.log := by
  intro template first second
  have hkept : first.2.dictionary = template.dictionary ∧ first.2.log = log' := by
    simp only [first, template, localize_build, and_self]
  have hsetting : settingFor lookup domain locale first.1 = settingFor lookup domain locale d := by
    simp only [first, template, localize_build]
    rfl
  have helements : ∀ f ∈ first.1.annotated mark,
      Calm mark (settingFor lookup domain locale first.1) first.2.dictionary f ∧
        Settled mark (settingFor lookup domain locale first.1) first.2.dictionary f := by
    intro f hf
    obtain ⟨e, he, rfl⟩ := exists_of_mem_annotated_localize_build hf
    have hm : e.attrs.has mark = true := (List.mem_filter.1 he).2
    rw [hsetting, hkept.1]
    exact ⟨calm_localized hm (knows_build he), settled_localized hm (knows_build he)⟩
  have hpage : second.1 = first.1 :=
    (localize_eq_self_iff _ fun _ => hasWrittenMarker_of_mem_localize).2 fun f hf => (helements f hf).2
  have hsecond := localize_of_calm first.2.log fun f hf => (helements f hf).1
  refine ⟨hkept, hpage, ?_, ?_⟩
  · exact congrArg (fun out => out.2.dictionary) hsecond
  · exact congrArg (fun out => out.2.log) hsecond

end Localization

end LocalePages
