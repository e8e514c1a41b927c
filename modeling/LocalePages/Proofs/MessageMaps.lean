import LocalePages.Catalog.MessageMap
import Mathlib.Data.List.Induction

/-!
# What scripts and pages get from one catalog

Pages get the first form of the first message that is live, certain and without context; scripts get all forms of the last live
message of the text, whatever it is (`MessageMap.get?_ofCatalog`). So both get the same exactly when the last live message says
what the first usable one says, or nothing where there is none (`MessageMap.agrees_iff`). They do where a text has one live message,
and this one is certain and without context (`MessageMap.agrees_of_single`), but not always: a guess that pages do not use gets
into the map of scripts (`MessageMap.agrees_false`).
-/

namespace LocalePages

/-- The forms of a value. Headers are no forms. -/
def MessageValue.forms : MessageValue → List Text
  | .headers _ => []
  | .single form => [form]
  | .several forms => forms

namespace Message

/-- Whether a message is live, about a text, and has a form. -/
def tells (id : Text) (m : Message) : Bool := !m.obsolete && m.id == id && !m.forms.isEmpty

variable {m : Message} {id : Text}

theorem tells_iff : m.tells id = true ↔ m.obsolete = false ∧ m.id = id ∧ m.forms ≠ [] := by
  simp [tells, and_assoc]

/-- A message with a form puts something into the map. -/
theorem exists_value? (h : m.forms ≠ []) : ∃ value, m.value? = some value := by
  unfold value?
  split
  · contradiction
  · split
    · exact ⟨_, rfl⟩
    · split <;> exact ⟨_, rfl⟩

/-- A message that is no header puts its forms into the map. -/
theorem forms_of_value? {value : MessageValue} (h : m.isHeader = false) (hvalue : m.value? = some value) :
    value.forms = m.forms := by
  unfold value? at hvalue
  split at hvalue
  · cases hvalue
  · rename_i first rest hforms
    rw [h] at hvalue
    rw [hforms]
    cases rest <;> cases hvalue <;> rfl

/-- A message about a text is no header. -/
theorem isHeader_eq_false (hid : id ≠ []) (h : m.id = id) : m.isHeader = false := by
  rw [isHeader, h, List.isEmpty_eq_false_iff.2 hid, Bool.false_and]

/-- What is used of a message is its first form, and not empty. -/
theorem usableForm?_eq_some_iff {t : Text} :
    m.usableForm? = some t ↔ m.obsolete = false ∧ m.isFuzzy = false ∧ m.forms.head? = some t ∧ t ≠ [] := by
  unfold usableForm?
  cases m.obsolete <;> cases m.isFuzzy <;> simp [Option.filter_eq_some_iff]

end Message

namespace Catalog

variable {c : Catalog} {id t : Text}

/-- What is used for a text is said by a live message about it that is certain and without context. -/
theorem exists_of_usableForm? (h : c.usableForm? id = some t) :
    ∃ m ∈ c.messages.filter (Message.tells id), m.context = none ∧ m.isFuzzy = false ∧ m.forms.head? = some t ∧ t ≠ [] := by
  obtain ⟨m, hm, hform⟩ := List.exists_of_findSome?_eq_some h
  obtain ⟨hlive, hcertain, hfirst, hne⟩ := Message.usableForm?_eq_some_iff.1 hform
  obtain ⟨hmem, hcontext⟩ := List.mem_filter.1 hm
  simp only [Bool.and_eq_true, Option.isNone_iff_eq_none, beq_iff_eq] at hcontext
  have hforms : m.forms ≠ [] := by
    rintro hnil
    rw [hnil] at hfirst
    cases hfirst
  exact ⟨m, List.mem_filter.2 ⟨hmem, Message.tells_iff.2 ⟨hlive, hcontext.2, hforms⟩⟩, hcontext.1.1, hcertain, hfirst, hne⟩

/-- A message about a text that can be used is enough for the text to be translated. -/
theorem usableForm?_ne_none {m : Message} (hid : id ≠ []) (hm : m ∈ c.messages.filter (Message.tells id))
    (hcontext : m.context = none) (hcertain : m.isFuzzy = false) (hform : m.forms.head? = some t) (hne : t ≠ []) : c.usableForm? id ≠ none := by
  intro hnone
  obtain ⟨hmem, htells⟩ := List.mem_filter.1 hm
  obtain ⟨hlive, hsame, -⟩ := Message.tells_iff.1 htells
  have hfound : m ∈ c.messages.filter fun m => m.context.isNone && !m.isHeader && m.id == id := by
    refine List.mem_filter.2 ⟨hmem, ?_⟩
    simp [hcontext, hsame, Message.isHeader_eq_false hid hsame]
  have husable := Message.usableForm?_eq_some_iff.2 ⟨hlive, hcertain, hform, hne⟩
  rw [usableForm?, List.findSome?_eq_none_iff] at hnone
  rw [hnone m hfound] at husable
  cases husable

end Catalog

namespace MessageMap

/-- The map and a catalog say the same of a text: what is used of the catalog is the first form in the map, and where the catalog
has nothing to use, the map has no form or an empty one. -/
def Agrees (map : MessageMap) (c : Catalog) (id : Text) : Prop :=
  match c.usableForm? id with
  | some t => ∃ value, Members.get? id map = some value ∧ value.forms.head? = some t
  | none => ∀ value, Members.get? id map = some value → value.forms.head? = some []

variable {c : Catalog} {id : Text}

/-- What a message puts into the map under a text. -/
theorem pairs_singleton (id : Text) (m : Message) :
    ((([m].filter fun m => !m.obsolete).filterMap fun m => m.value?.map fun value => (m.id, value)).filter fun p => p.1 = id) =
      if m.tells id then m.value?.toList.map fun value => (id, value) else [] := by
  cases hobsolete : m.obsolete with
  | true => simp [Message.tells, hobsolete]
  | false =>
    by_cases hid : m.id = id
    · cases hforms : m.forms with
      | nil => simp [Message.tells, Message.value?, hobsolete, hforms]
      | cons first rest =>
        obtain ⟨value, hvalue⟩ := Message.exists_value? (List.ne_nil_of_mem (hforms ▸ List.mem_cons_self))
        simp [Message.tells, hobsolete, hid, hforms, hvalue]
    · cases hvalue : m.value? <;> simp [Message.tells, hobsolete, hid, hvalue]

/-- The map has for a text what the last live message of the text says. -/
theorem get?_ofCatalog (c : Catalog) (id : Text) :
    Members.get? id (ofCatalog c) = ((c.messages.filter (Message.tells id)).getLast?).bind Message.value? := by
  rw [ofCatalog, Members.get?_ofPairs]
  induction c.messages using List.reverseRecOn with
  | nil => rfl
  | append_singleton messages m ih =>
    rw [List.filter_append, List.filterMap_append, List.filter_append, pairs_singleton, List.filter_append]
    by_cases htells : m.tells id = true
    · obtain ⟨value, hvalue⟩ := Message.exists_value? (Message.tells_iff.1 htells).2.2
      have hlast : [m].filter (Message.tells id) = [m] := List.filter_cons_of_pos htells
      rw [if_pos htells, hlast, hvalue, List.getLast?_concat, Option.bind_some, hvalue]
      exact congrArg (Option.map Prod.snd) List.getLast?_concat
    · have hnone : [m].filter (Message.tells id) = [] := List.filter_cons_of_neg htells
      rw [if_neg htells, hnone, List.append_nil, List.append_nil]
      exact ih

/-- The map of a catalog agrees with it on a text exactly when the last live message of the text, if there is one, has the form that
is used of the catalog as its first one, and an empty one where none is used. -/
theorem agrees_ofCatalog_iff (hid : id ≠ []) :
    (ofCatalog c).Agrees c id ↔ ∀ m, (c.messages.filter (Message.tells id)).getLast? = some m →
      m.forms.head? = some ((c.usableForm? id).getD []) := by
  unfold Agrees
  rw [get?_ofCatalog]
  cases hlast : (c.messages.filter (Message.tells id)).getLast? with
  | none =>
    have hunused : c.usableForm? id = none := by
      refine Option.eq_none_iff_forall_ne_some.2 fun t ht => ?_
      obtain ⟨m, hm, -⟩ := Catalog.exists_of_usableForm? ht
      rw [List.getLast?_eq_none_iff.1 hlast] at hm
      cases hm
    simp [hunused]
  | some m =>
    obtain ⟨-, htells⟩ := List.mem_filter.1 (List.mem_of_getLast? hlast)
    obtain ⟨-, hsame, hforms⟩ := Message.tells_iff.1 htells
    obtain ⟨value, hvalue⟩ := Message.exists_value? hforms
    have hvalues := Message.forms_of_value? (Message.isHeader_eq_false hid hsame) hvalue
    cases c.usableForm? id <;> simp [hvalue, hvalues]

/-- A catalog that can be read has a map, and both say the same of a text exactly when the last live message of the text, if there
is one, has the form that is used of the catalog as its first one, and an empty one where none is used. -/
theorem agrees_iff {t : Text} {c : Catalog} (hparse : Catalog.parse t = .ok c) {id : Text} (hid : id ≠ []) :
    ∃ map, ofText t = .ok map ∧
      (map.Agrees c id ↔ ∀ m, (c.messages.filter (Message.tells id)).getLast? = some m →
        m.forms.head? = some ((c.usableForm? id).getD [])) := by
  refine ⟨ofCatalog c, ?_, agrees_ofCatalog_iff hid⟩
  rw [ofText, hparse]
  rfl

/-- The map of a catalog agrees with it on a text that has one live message at most, which is certain and without context. -/
theorem agrees_of_single (hid : id ≠ []) (hsingle : (c.messages.filter (Message.tells id)).length ≤ 1)
    (hplain : ∀ m ∈ c.messages.filter (Message.tells id), m.context = none ∧ m.isFuzzy = false) : (ofCatalog c).Agrees c id := by
  refine (agrees_ofCatalog_iff hid).2 fun m hlast => ?_
  have hm := List.mem_of_getLast? hlast
  have hone : (c.messages.filter (Message.tells id)).length = 1 := by
    have hpos := List.length_pos_of_mem hm
    omega
  have honly : ∀ n ∈ c.messages.filter (Message.tells id), n = m := by
    intro n hn
    obtain ⟨only, hfilter⟩ := List.length_eq_one_iff.1 hone
    rw [hfilter, List.mem_singleton] at hn hm
    rw [hn, hm]
  obtain ⟨hcontext, hcertain⟩ := hplain m hm
  cases husable : c.usableForm? id with
  | some t =>
    obtain ⟨n, hn, -, -, hfirst, -⟩ := Catalog.exists_of_usableForm? husable
    rw [← honly n hn, hfirst, Option.getD_some]
  | none =>
    obtain ⟨-, htells⟩ := List.mem_filter.1 hm
    obtain ⟨-, -, hforms⟩ := Message.tells_iff.1 htells
    obtain ⟨first, rest, hcons⟩ := List.exists_cons_of_ne_nil hforms
    have hhead : m.forms.head? = some first := by rw [hcons, List.head?_cons]
    -- a form that could be used would be
    have hempty : first = [] := by
      by_contra hne
      exact Catalog.usableForm?_ne_none hid hm hcontext hcertain hhead hne husable
    rw [hhead, hempty, Option.getD_none]

namespace FuzzyWitness

/-- A catalog with a certain message and a guess. -/
def file : Text := "msgid \"Hello\"\nmsgstr \"Ahoj\"\n\n#, fuzzy\nmsgid \"Goodbye\"\nmsgstr \"Sbohem\"\n"

/-- The catalog as it is read. -/
def catalog : Catalog :=
  ⟨[⟨none, "Hello", none, ["Ahoj"], [], false⟩, ⟨none, "Goodbye", none, ["Sbohem"], ["fuzzy"], false⟩]⟩

/-- The file holds the catalog. -/
theorem parse_file : Catalog.parse file = .ok catalog := by decide +kernel

end FuzzyWitness

open FuzzyWitness in
/-- The catalog of `FuzzyWitness` and its map have the same for the certain message. -/
theorem agrees_iff_hello : ∃ map, ofText file = .ok map ∧ map.Agrees catalog "Hello" := by
  have hid : ("Hello" : Text) ≠ [] := by decide
  obtain ⟨map, hmap, hagrees⟩ := agrees_iff parse_file hid
  refine ⟨map, hmap, hagrees.2 fun m hm => ?_⟩
  have hlast : (catalog.messages.filter (Message.tells "Hello")).getLast? =
      some ⟨none, "Hello", none, ["Ahoj"], [], false⟩ := by decide +kernel
  obtain rfl := Option.some.inj (hlast.symm.trans hm)
  decide +kernel

open FuzzyWitness in
/-- A catalog and its map do not always say the same: pages do not use the guess of `FuzzyWitness`, and scripts get it. -/
theorem agrees_false :
    ¬∀ (t : Text) (c : Catalog) (id : Text), Catalog.parse t = .ok c → id ≠ [] → ∀ map, ofText t = .ok map → map.Agrees c id := by
  intro h
  have hmap : ofText file = .ok [("Hello", .single "Ahoj"), ("Goodbye", .single "Sbohem")] := by decide +kernel
  have hagrees := h file catalog "Goodbye" parse_file (by decide) _ hmap
  have hunused : catalog.usableForm? "Goodbye" = none := by decide +kernel
  rw [Agrees, hunused] at hagrees
  have hfirst := hagrees (.single "Sbohem") (by decide +kernel)
  cases hfirst

end MessageMap

end LocalePages
