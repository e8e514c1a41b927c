import LocalePages.Proofs.MessageMaps

/-!
# The kind of a message and the shape of its value

A script that picks a form of a plural needs a list, however many forms the language has. The map makes a list of forms by their
number alone and never looks at the plural of a message, so that a message has a value of its kind exactly when it is not a plural
with a single form (`MessageMap.suits_iff`). In a language with one form such a plural reaches scripts as a bare text
(`MessageMap.suits_false`).
-/

namespace LocalePages

/-- A value has the shape that the kind of a message asks for: all forms in a list for a message with a plural, and the form itself
for one without a plural that has one form. -/
structure Message.Suits (m : Message) (value : MessageValue) : Prop where
  plural : m.plural.isSome = true → value = .several m.forms
  single : m.plural = none → ∀ form, m.forms = [form] → value = .single form

namespace Message

variable {m : Message}

/-- A message with one form that is no header has this form in the map. -/
theorem value?_of_single (h : m.isHeader = false) {form : Text} (hforms : m.forms = [form]) : m.value? = some (.single form) := by
  rw [value?, hforms]
  simp [h]

/-- A message with several forms that is no header has the list of them in the map. -/
theorem value?_of_several (h : m.isHeader = false) (hforms : 2 ≤ m.forms.length) : m.value? = some (.several m.forms) := by
  rw [value?]
  rcases hm : m.forms with _ | ⟨first, _ | ⟨second, rest⟩⟩
  · simp [hm] at hforms
  · simp [hm] at hforms
  · simp [h]

/-- What a message that is no header has in the map suits its kind exactly when it is not a plural with a single form. -/
theorem exists_value?_and_suits_iff (h : m.isHeader = false) (hforms : m.forms ≠ []) :
    ∃ value, m.value? = some value ∧ (m.Suits value ↔ (m.plural.isSome = true → m.forms.length ≠ 1)) := by
  by_cases hone : m.forms.length = 1
  · obtain ⟨form, hform⟩ := List.length_eq_one_iff.1 hone
    refine ⟨_, value?_of_single h hform, ?_⟩
    constructor
    · intro hsuits hplural
      cases hsuits.plural hplural
    · intro hnot
      refine ⟨fun hplural => absurd hone (hnot hplural), fun _ other hother => ?_⟩
      rw [hform, List.singleton_inj] at hother
      rw [hother]
  · have hpos := List.length_pos_iff.2 hforms
    refine ⟨_, value?_of_several h (by omega), fun _ _ => hone, fun _ => ⟨fun _ => rfl, fun _ form hform => ?_⟩⟩
    rw [hform] at hone
    exact absurd rfl hone

end Message

namespace MessageMap

/-- The map has what a live message says under its text when no live message of the text comes after it. -/
theorem get?_ofCatalog_of_last {c : Catalog} {m : Message} {before after : List Message} (hmessages : c.messages = before ++ m :: after)
    (hlive : m.obsolete = false) (hforms : m.forms ≠ []) (hlast : ∀ n ∈ after, n.obsolete = false → n.id ≠ m.id) :
    Members.get? m.id (ofCatalog c) = m.value? := by
  have htells : m.tells m.id = true := Message.tells_iff.2 ⟨hlive, rfl, hforms⟩
  have hafter : after.filter (Message.tells m.id) = [] := by
    rw [List.filter_eq_nil_iff]
    intro n hn hother
    obtain ⟨hlive, hid, -⟩ := Message.tells_iff.1 hother
    exact hlast n hn hlive hid
  rw [get?_ofCatalog, hmessages, List.filter_append, List.filter_cons_of_pos htells, hafter, List.getLast?_concat, Option.bind_some]

/-- The map of a catalog that can be read has the forms of each live message that is no header, has a form and is not followed by a
live message of the same text; and what it has is of the kind of the message exactly when that is not a plural with a single form. -/
theorem suits_iff {t : Text} {c : Catalog} {m : Message} {before after : List Message} (hparse : Catalog.parse t = .ok c)
    (hmessages : c.messages = before ++ m :: after) (hlive : m.obsolete = false) (hheader : m.isHeader = false) (hforms : m.forms ≠ [])
    (hlast : ∀ n ∈ after, n.obsolete = false → n.id ≠ m.id) :
    ∃ map value, ofText t = .ok map ∧ Members.get? m.id map = some value ∧ value.forms = m.forms ∧
      (m.Suits value ↔ (m.plural.isSome = true → m.forms.length ≠ 1)) := by
  obtain ⟨value, hvalue, hsuits⟩ := Message.exists_value?_and_suits_iff hheader hforms
  refine ⟨ofCatalog c, value, ?_, ?_, Message.forms_of_value? hheader hvalue, hsuits⟩
  · rw [ofText, hparse]
    rfl
  · rw [get?_ofCatalog_of_last hmessages hlive hforms hlast, hvalue]

namespace AppleWitness

/-- A catalog with a plural of two forms. -/
def french : Text := "msgid \"1 apple\"\nmsgid_plural \"%1 apples\"\nmsgstr[0] \"1 pomme\"\nmsgstr[1] \"%1 pommes\"\n"

/-- Its message. -/
def pommes : Message := ⟨none, "1 apple", some "%1 apples", ["1 pomme", "%1 pommes"], [], false⟩

/-- A catalog of a language with one form. -/
def japanese : Text := "msgid \"1 apple\"\nmsgid_plural \"%1 apples\"\nmsgstr[0] \"%1 ringo\"\n"

/-- Its message. -/
def ringo : Message := ⟨none, "1 apple", some "%1 apples", ["%1 ringo"], [], false⟩

end AppleWitness

open AppleWitness in
/-- Both forms of the plural of `AppleWitness` reach scripts in a list. -/
theorem suits_iff_french : ∃ map value, ofText french = .ok map ∧ Members.get? pommes.id map = some value ∧ pommes.Suits value := by
  have hparse : Catalog.parse french = .ok ⟨[pommes]⟩ := by decide +kernel
  have hmessages : (Catalog.mk [pommes]).messages = [] ++ pommes :: [] := rfl
  obtain ⟨map, value, hmap, hvalue, -, hsuits⟩ :=
    suits_iff hparse hmessages rfl (by decide +kernel) (by decide) fun n hn => absurd hn List.not_mem_nil
  exact ⟨map, value, hmap, hvalue, hsuits.2 fun _ => by decide⟩

open AppleWitness in
/-- Not every plural reaches scripts as a list: the one of `AppleWitness` with a single form is a bare text. -/
theorem suits_false :
    ¬∀ (t : Text) (c : Catalog) (m : Message) (before after : List Message), Catalog.parse t = .ok c →
      c.messages = before ++ m :: after → m.obsolete = false → m.isHeader = false → m.forms ≠ [] →
      (∀ n ∈ after, n.obsolete = false → n.id ≠ m.id) →
      ∃ map value, ofText t = .ok map ∧ Members.get? m.id map = some value ∧ m.Suits value := by
  intro h
  have hparse : Catalog.parse japanese = .ok ⟨[ringo]⟩ := by decide +kernel
  obtain ⟨map, value, hmap, hvalue, hsuits⟩ :=
    h japanese ⟨[ringo]⟩ ringo [] [] hparse rfl rfl (by decide +kernel) (by decide) fun n hn => absurd hn List.not_mem_nil
  have hread : ofText japanese = .ok [("1 apple", .single "%1 ringo")] := by decide +kernel
  rw [hread] at hmap
  cases hmap
  have hbare : Members.get? ringo.id [(("1 apple" : Text), MessageValue.single "%1 ringo")] = some (.single "%1 ringo") := by
    decide +kernel
  rw [hbare] at hvalue
  cases hvalue
  cases hsuits.plural rfl

end MessageMap

end LocalePages
