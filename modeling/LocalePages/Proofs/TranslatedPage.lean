import LocalePages.Proofs.Templates

/-!
# What a localized page shows

The end-to-end statement about templates (`localize_template_shows`): where building tells of no collision, every annotated
element that is still in the localized page shows what the catalogs say of the texts of the source, each looked up in the domain
of the last tag that asks for it.
-/

namespace LocalePages

namespace Localization

open Template

/-- Where building tells of no collision, an annotated element of the localized template stands where an annotated element of the
page stood, and for every keyword but the marker that the element had a tag without a hash for and was about something for, it
now has what the catalogs say of this text, in canonical form, in the domain of the last such tag. When this is its text, it is
all there is inside. -/
theorem localize_template_shows {mark domain : Text} {lookup : CatalogLookup} {locale : Locale} {d : Document} {log log' : Log}
    (hclear : NoCollision d.displayName log (build ⟨mark, false⟩ domain d log).2) {way : List Nat} {f : Element}
    (hf : Node.elementAt? (localize ⟨mark, false⟩ lookup domain locale (build ⟨mark, false⟩ domain d log).1.document
      (build ⟨mark, false⟩ domain d log).1.dictionary log').1.nodes way = some f)
    (hm : f.attrs.has mark = true) :
    ∃ e, Node.elementAt? d.nodes way = some e ∧ e.attrs.has mark = true ∧
      ∀ k a, k ≠ .attribute mark → ((e.bindings mark).filter fun b => b.hash.isNone && b.keyword == k).getLast? = some a →
        e.canonical k ≠ [] →
        f.bound k = lookup (a.domainOr domain) (e.canonical k) locale ∧
          (k = .text → f.children = [.text (lookup (a.domainOr domain) (e.canonical k) locale)]) := by
  rw [localize_build] at hf
  obtain ⟨e₁, hat₁, rfl⟩ := Node.elementAt?_revisedAll hf
  obtain ⟨e, hat, rfl⟩ := Node.elementAt?_revisedAll hat₁
  have he : e.attrs.has mark = true := by
    by_contra hnot
    simp [Element.revised, hnot] at hm
  have hmem : e ∈ d.annotated mark := List.mem_filter.2 ⟨Node.mem_elementsAll_iff.2 ⟨way, hat⟩, he⟩
  refine ⟨e, hat, he, fun k a hk ha hne => ?_⟩
  have hshown := lastWrite?_shown_of_owns (s := settingFor lookup domain locale d) (owns_build hclear hmem) hne ha
  rw [← bindings_built he] at hshown
  have hkept := write_revised_shownRevision (has_built he) hk hshown
  refine ⟨?_, ?_⟩
  · have hbound := congrArg (Element.bound · k) hkept
    simp only [Element.bound_write_self] at hbound
    exact hbound.symm
  · rintro rfl
    exact (congrArg Element.children hkept).symm

namespace GreetingWitness

/-- An element with a tag for its text and two for its title, in different domains. -/
def greeting : Element :=
  ⟨.html "p", [⟨.none, "gettext", ". title shop:title"⟩, ⟨.none, "title", " Hi "⟩], [.text "Hello,\n world"]⟩

/-- A page with this element. -/
def page : Document := ⟨[greeting.node], none⟩

/-- A catalog that says in which domain it was asked. -/
def lookup : CatalogLookup := fun domain canonical _ => domain ++ ": " ++ canonical

/-- The locale of the catalog. -/
def locale : Locale := ⟨"cs", none, "CZ", [], none⟩

/-- Building the page logs nothing. -/
theorem log_build : (build ⟨"gettext", false⟩ "app" page .empty).2 = .empty := by decide +kernel

/-- The element is in the localized page, and annotated. -/
theorem exists_localized :
    ∃ f, Node.elementAt? (localize ⟨"gettext", false⟩ lookup "app" locale (build ⟨"gettext", false⟩ "app" page .empty).1.document
      (build ⟨"gettext", false⟩ "app" page .empty).1.dictionary .empty).1.nodes [0] = some f ∧ f.attrs.has "gettext" = true := by
  refine (Option.any_eq_true _ _).1 ?_
  decide +kernel

end GreetingWitness

open GreetingWitness in
/-- The page of `GreetingWitness` shows its text in the domain of the page, and its title in that of the last tag for it. -/
theorem localize_template_shows_greeting :
    NoCollision page.displayName .empty (build ⟨"gettext", false⟩ "app" page .empty).2 ∧
    ∃ f, Node.elementAt? (localize ⟨"gettext", false⟩ lookup "app" locale (build ⟨"gettext", false⟩ "app" page .empty).1.document
        (build ⟨"gettext", false⟩ "app" page .empty).1.dictionary .empty).1.nodes [0] = some f ∧
      f.bound (.attribute "title") = ("shop: Hi" : Text) ∧ f.children = [.text ("app: Hello, world" : Text)] := by
  have hclear : NoCollision page.displayName .empty (build ⟨"gettext", false⟩ "app" page .empty).2 := by
    intro key existing canonical he
    rw [log_build, Log.added_self] at he
    cases he
  obtain ⟨f, hf, hm⟩ := exists_localized
  obtain ⟨e, hat, -, hshown⟩ := localize_template_shows hclear hf hm
  obtain rfl : greeting = e := Option.some.inj hat
  have htitle := hshown (.attribute "title") ⟨some "shop", .attribute "title", none⟩ (by decide +kernel) (by decide +kernel)
    (by decide +kernel)
  have htext := hshown .text ⟨none, .text, none⟩ (by decide +kernel) (by decide +kernel) (by decide +kernel)
  have htitle' : lookup "shop" (greeting.canonical (.attribute "title")) locale = "shop: Hi" := by decide +kernel
  have htext' : lookup "app" (greeting.canonical .text) locale = "app: Hello, world" := by decide +kernel
  exact ⟨hclear, f, hf, htitle.1.trans htitle', (htext.2 rfl).trans (by rw [← htext']; rfl)⟩

end Localization

end LocalePages
