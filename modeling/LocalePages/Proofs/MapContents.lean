import LocalePages.Proofs.FirstOccurrences
import LocalePages.Proofs.MessageMaps
import LocalePages.Proofs.WrittenJson
import Mathlib.Data.List.Forall2

/-!
# What the JSON of a message map says

A message map that was written is read as the catalog again: one member for each live message with a form, in the order of the
catalog, where no two of them are about the same text (`MessageMap.parse?_written`). A member is found next to its message, and what
it says is stated without the way in which the map is made (`Message.SaidAs`); a header is what its lines say (`Catalog.HeadersOf`).
-/

namespace LocalePages

namespace Catalog

/-! ## Headers -/

/-- What a line says as a header: the name before its first colon in small letters, and the value after it. -/
def headerOf? (line : Text) : Option (Text × Text) :=
  (Text.cutAt? ':' line).map fun (name, value) => (Text.lower name.trim, value.trim)

/-- White space around a line does not change what it says as a header. -/
theorem headerOf?_trim (line : Text) : headerOf? line.trim = headerOf? line := by
  by_cases hcolon : ':' ∈ line
  · obtain ⟨name, value, rfl, hname⟩ := List.eq_append_cons_of_mem hcolon
    have hwide : isWide ':' = false := by decide
    obtain ⟨before, hbefore, hstart⟩ : ∃ before, (∀ c ∈ before, isWide c = true) ∧ name = before ++ name.dropWhile isWide :=
      ⟨_, fun _ hc => List.mem_takeWhile_imp hc, List.takeWhile_append_dropWhile.symm⟩
    obtain ⟨after, hafter, hend⟩ := Text.exists_dropEndWhile isWide value
    have htrim : Text.trim (name ++ ':' :: value) = name.dropWhile isWide ++ ':' :: Text.dropEndWhile isWide value := by
      have hdrop : (name ++ ':' :: value).dropWhile isWide = name.dropWhile isWide ++ ':' :: value := by
        rw [List.dropWhile_append]
        split
        · rename_i hall
          rw [List.isEmpty_iff.1 hall, List.dropWhile_cons_of_neg (by simp [hwide]), List.nil_append]
        · rfl
      rw [Text.trim, Text.trimWhile, hdrop, Text.dropEndWhile_append_cons _ _ hwide]
    have hrest : ':' ∉ name.dropWhile isWide := fun hc => hname ((List.dropWhile_sublist _).mem hc)
    have hnames : Text.trim (name.dropWhile isWide) = Text.trim name := by
      conv_rhs => rw [hstart, Text.trim_prepend _ hbefore]
    have hvalues : Text.trim (Text.dropEndWhile isWide value) = Text.trim value := by
      conv_rhs => rw [hend, Text.trim_append _ hafter]
    rw [headerOf?, headerOf?, htrim, Text.cutAt?_append _ hrest, Text.cutAt?_append _ hname]
    exact congrArg some (Prod.ext (congrArg Text.lower hnames) hvalues)
  · have htrim : ':' ∉ Text.trim line := fun hc => hcolon (Text.mem_of_mem_trim hc)
    rw [headerOf?, headerOf?, Text.cutAt?_eq_none hcolon, Text.cutAt?_eq_none htrim]

/-- The headers of a text are what its lines say. -/
theorem headers_eq_filterMap (t : Text) : headers t = t.lines.filterMap headerOf? := by
  rw [headers, List.filterMap_filter, List.filterMap_map]
  refine List.filterMap_congr fun line _ => ?_
  show (if (!line.trim.isEmpty) = true then headerOf? line.trim else none) = headerOf? line
  split
  · exact headerOf?_trim line
  · rename_i hempty
    have hnil : line.trim = [] := by simpa using hempty
    rw [← headerOf?_trim line, hnil]
    rfl

/-- Members are the headers in a text: each name has the place of its first line, and the value of its last one. -/
structure HeadersOf (t : Text) (members : List (Text × Text)) : Prop where
  names : members.map Prod.fst = ((t.lines.filterMap headerOf?).map Prod.fst).eraseDups
  values : ∀ m ∈ members, ((t.lines.filterMap headerOf?).filter fun line => line.1 = m.1).getLast? = some m

/-- The members that are made of the headers in a text are these headers. -/
theorem headersOf_ofPairs (t : Text) : HeadersOf t (Members.ofPairs (headers t)) := by
  rw [headers_eq_filterMap]
  exact ⟨Members.map_fst_ofPairs _, fun _ => Members.getLast?_of_mem_ofPairs⟩

end Catalog

/-! ## Messages -/

namespace Message

/-- Whether a message is live and has a form. -/
def isShown (m : Message) : Bool := !m.obsolete && !m.forms.isEmpty

/-- JSON says what a message does: its only form, the list of its forms, or the headers in the first form of the header. -/
inductive SaidAs (m : Message) : JsonValue → Prop
  | form {form : Text} : m.isHeader = false → m.forms = [form] → SaidAs m (.string form)
  | forms : m.isHeader = false → 2 ≤ m.forms.length → SaidAs m (.array (m.forms.map .string))
  | headers {t : Text} {members : List (Text × Text)} : m.id = [] → m.context = none → m.forms.head? = some t →
      Catalog.HeadersOf t members → SaidAs m (.object (members.map fun p => (p.1, .string p.2)))

variable {m : Message}

/-- What a message puts into the map says what the message does. -/
theorem saidAs_of_value? {value : MessageValue} (h : m.value? = some value) : m.SaidAs value.json := by
  unfold value? at h
  split at h
  · cases h
  · rename_i first rest hforms
    split at h
    · rename_i hheader
      cases h
      obtain ⟨hid, hcontext⟩ : m.id = [] ∧ m.context = none := by simpa [isHeader] using hheader
      exact .headers hid hcontext (by rw [hforms, List.head?_cons]) (Catalog.headersOf_ofPairs first)
    · rename_i hheader
      have hplain : m.isHeader = false := by simpa using hheader
      rcases rest with _ | ⟨second, rest⟩
      · cases h
        exact .form hplain hforms
      · cases h
        have hseveral : m.SaidAs (.array (m.forms.map .string)) := .forms hplain (by simp [hforms])
        rw [hforms] at hseveral
        exact hseveral

end Message

/-! ## Maps -/

/-- A value in a message map is made of texts. -/
theorem MessageValue.holdsTexts_json (value : MessageValue) : value.json.HoldsTexts := by
  cases value with
  | headers members =>
    refine .object fun m hm => ?_
    obtain ⟨p, -, rfl⟩ := List.mem_map.1 hm
    exact .string p.2
  | single form => exact .string form
  | several forms =>
    refine .array fun item hitem => ?_
    obtain ⟨form, -, rfl⟩ := List.mem_map.1 hitem
    exact .string form

namespace MessageMap

variable {c : Catalog}

/-- What the messages of a catalog put into the map stands in the order of the messages that are shown. -/
theorem forall₂_values (messages : List Message) :
    List.Forall₂ (fun m p => m.id = p.1 ∧ m.value? = some p.2) (messages.filter Message.isShown)
      ((messages.filter fun m => !m.obsolete).filterMap fun m => m.value?.map fun value => (m.id, value)) := by
  induction messages with
  | nil => exact .nil
  | cons m messages ih =>
    by_cases hshown : m.isShown = true
    · obtain ⟨hlive, hforms⟩ : m.obsolete = false ∧ m.forms ≠ [] := by simpa [Message.isShown] using hshown
      obtain ⟨value, hvalue⟩ := Message.exists_value? hforms
      have hpair : (m.value?.map fun value => (m.id, value)) = some (m.id, value) := by rw [hvalue, Option.map_some]
      rw [List.filter_cons_of_pos hshown, List.filter_cons_of_pos (by simp [hlive]), List.filterMap_cons]
      simp only [hpair]
      exact .cons ⟨rfl, hvalue⟩ ih
    · rw [List.filter_cons_of_neg hshown]
      by_cases hlive : m.obsolete = false
      · have hforms : m.forms = [] := by simpa [Message.isShown, hlive] using hshown
        have hnone : (m.value?.map fun value => (m.id, value)) = none := by simp [Message.value?, hforms]
        rw [List.filter_cons_of_pos (by simp [hlive]), List.filterMap_cons]
        simp only [hnone]
        exact ih
      · rw [List.filter_cons_of_neg (by simpa using hlive)]
        exact ih

/-- The map of a catalog whose shown messages are about different texts has what each of them says, in their order. -/
theorem forall₂_ofCatalog (h : ((c.messages.filter Message.isShown).map Message.id).Nodup) :
    List.Forall₂ (fun m p => m.id = p.1 ∧ m.value? = some p.2) (c.messages.filter Message.isShown) (ofCatalog c) := by
  have hvalues := forall₂_values c.messages
  have hkeys : (c.messages.filter Message.isShown).map Message.id =
      ((c.messages.filter fun m => !m.obsolete).filterMap fun m => m.value?.map fun value => (m.id, value)).map Prod.fst := by
    rw [← List.forall₂_eq_eq_eq, List.forall₂_map_left_iff, List.forall₂_map_right_iff]
    exact hvalues.imp fun _ _ hsame => hsame.1
  rw [hkeys] at h
  rw [ofCatalog, Members.ofPairs_of_nodup h]
  exact hvalues

/-- A map that was written is read as an object with its members. -/
theorem parse?_written_eq (map : MessageMap) :
    JsonValue.parse? map.written = some (.object (map.map fun p => (p.1, p.2.json))) := by
  refine JsonValue.parse?_pretty (fun c hc => ?_) (.object fun m hm => ?_)
  · rw [List.eq_of_mem_replicate (show c ∈ List.replicate 4 ' ' from hc)]
    rfl
  · obtain ⟨p, -, rfl⟩ := List.mem_map.1 hm
    exact p.2.holdsTexts_json

/-- A catalog that can be read has a map, and where no two of its live messages with a form are about the same text, the map as it is
written is read as an object with one member for each of these messages, in their order, under the text of the message. -/
theorem parse?_written {t : Text} (hparse : Catalog.parse t = .ok c)
    (hdifferent : ((c.messages.filter Message.isShown).map Message.id).Nodup) :
    ∃ map members, ofText t = .ok map ∧ JsonValue.parse? map.written = some (.object members) ∧
      List.Forall₂ (fun m member => m.id = member.1 ∧ m.SaidAs member.2) (c.messages.filter Message.isShown) members := by
  refine ⟨ofCatalog c, _, ?_, parse?_written_eq _, ?_⟩
  · rw [ofText, hparse]
    rfl
  · rw [List.forall₂_map_right_iff]
    exact (forall₂_ofCatalog hdifferent).imp fun _ _ hmember => ⟨hmember.1, Message.saidAs_of_value? hmember.2⟩

namespace OrchardWitness

/-- A catalog of a header that has a name twice, a plural, a text with characters that JSON escapes and with an empty form, and an
obsolete message. -/
def file : Text :=
  "msgid \"\"\nmsgstr \"\"\n\"Language: fr\\n\"\n\"X-Team : a\\n\"\n\" LANGUAGE:cs:CZ\\n\"\n\n" ++
    "msgid \"1 apple\"\nmsgid_plural \"%1 apples\"\nmsgstr[0] \"1 pomme\"\nmsgstr[1] \"%1 pommes\"\n\n" ++
    "msgid \"Say \\\"hi\\\"\\t\\a\"\nmsgstr \"\"\n\n#~ msgid \"1 apple\"\n#~ msgstr \"1 apfel\"\n"

/-- The header. -/
def header : Message := ⟨none, "", none, ["Language: fr\nX-Team : a\n LANGUAGE:cs:CZ\n"], [], false⟩

/-- The plural. -/
def apples : Message := ⟨none, "1 apple", some "%1 apples", ["1 pomme", "%1 pommes"], [], false⟩

/-- The text with characters that JSON escapes. -/
def greeting : Message := ⟨none, "Say \"hi\"\t\x07", none, [""], [], false⟩

/-- The catalog as it is read. -/
def catalog : Catalog := ⟨[header, apples, greeting, ⟨none, "1 apple", none, ["1 apfel"], [], true⟩]⟩

end OrchardWitness

open OrchardWitness in
/-- The map of `OrchardWitness` is read with the header, the plural and the greeting. -/
theorem parse?_written_orchard :
    ∃ map members, ofText file = .ok map ∧ JsonValue.parse? map.written = some (.object members) ∧
      List.Forall₂ (fun m member => m.id = member.1 ∧ m.SaidAs member.2) [header, apples, greeting] members := by
  have hparse : Catalog.parse file = .ok catalog := by decide +kernel
  have hshown : catalog.messages.filter Message.isShown = [header, apples, greeting] := by decide +kernel
  obtain ⟨map, members, hmap, hread, hmembers⟩ := parse?_written hparse (by decide +kernel)
  rw [hshown] at hmembers
  exact ⟨map, members, hmap, hread, hmembers⟩

end MessageMap

end LocalePages
