import LocalePages.Proofs.Markers

/-!
# The form of tags

A tag has a form that is told without reading it: a word and a colon or nothing, a word or a dot, and a sharp and a word or nothing
(`HasTagForm`). The words of a marker of this form are its tags, each once and written as they stood, and an error is logged for
every other word; different bindings of words are read back from the marker they are written to (`Tag.ofMarker_of_forms`).
-/

namespace LocalePages

/-- Whether a text has the form of a tag: `[word:](word|.)[#word]`. -/
def HasTagForm (raw : Text) : Prop :=
  ∃ domain keyword hash, (domain = [] ∨ ∃ word, isWord word = true ∧ domain = word ++ [':']) ∧
    (keyword = ['.'] ∨ isWord keyword = true) ∧ (hash = [] ∨ ∃ word, isWord word = true ∧ hash = '#' :: word) ∧
    raw = domain ++ keyword ++ hash

/-- A readable binding is written in the form of a tag. -/
theorem Binding.hasTagForm_written {a : Binding} (ha : a.Readable) : HasTagForm a.written := by
  obtain ⟨domain, keyword, hash⟩ := a
  refine ⟨_, _, _, ?_, ?_, ?_, rfl⟩
  · cases domain with
    | none => exact Or.inl rfl
    | some word => exact Or.inr ⟨word, ha.domain word rfl, rfl⟩
  · rcases keyword with _ | name
    · exact Or.inl rfl
    · exact Or.inr ha.keyword
  · cases hash with
    | none => exact Or.inl rfl
    | some word => exact Or.inr ⟨word, ha.hash word rfl, rfl⟩

/-- What has the form of a tag is written from a readable binding. -/
theorem HasTagForm.exists_written {raw : Text} (h : HasTagForm raw) : ∃ a : Binding, a.Readable ∧ raw = a.written := by
  obtain ⟨domain, keyword, hash, hdomain, hkeyword, hhash, rfl⟩ := h
  obtain ⟨domain?, hd, rfl⟩ : ∃ d : Option Text, (∀ word ∈ d, isWord word = true) ∧
      domain = d.elim [] (· ++ [':']) := by
    rcases hdomain with rfl | ⟨word, hword, rfl⟩
    · exact ⟨none, nofun, rfl⟩
    · exact ⟨some word, by simpa using hword, rfl⟩
  obtain ⟨k, hk, rfl⟩ : ∃ k : Keyword, k.Readable ∧ keyword = k.written := by
    rcases hkeyword with rfl | hword
    · exact ⟨.text, trivial, rfl⟩
    · exact ⟨.attribute keyword, hword, rfl⟩
  obtain ⟨hash?, hh, rfl⟩ : ∃ t : Option Text, (∀ word ∈ t, isWord word = true) ∧
      hash = t.elim [] ('#' :: ·) := by
    rcases hhash with rfl | ⟨word, hword, rfl⟩
    · exact ⟨none, nofun, rfl⟩
    · exact ⟨some word, by simpa using hword, rfl⟩
  refine ⟨⟨domain?, k, hash?⟩, ⟨hd, hk, hh⟩, ?_⟩
  cases domain? <;> cases hash? <;> rfl

/-- A text can be read as a tag exactly when it has the form of one. -/
theorem hasTagForm_iff {raw : Text} : HasTagForm raw ↔ (Binding.parse raw).toBool = true := by
  constructor
  · intro h
    obtain ⟨a, ha, rfl⟩ := h.exists_written
    rw [Binding.parse_written ha]
    rfl
  · intro h
    cases hparse : Binding.parse raw with
    | error e =>
      rw [hparse] at h
      cases h
    | ok a =>
      obtain ⟨ha, rfl⟩ := Binding.eq_written_of_parse hparse
      exact Binding.hasTagForm_written ha

/-- Whether a text has the form of a tag is found by reading it. -/
instance (raw : Text) : Decidable (HasTagForm raw) := decidable_of_iff' _ hasTagForm_iff

/-- The tags of a marker are its words of the form of a tag, in order of first occurrence, each with a binding that is written like
it; an error is logged for every occurrence of another word, and for nothing else. Different bindings of words are read back from
the marker they are written to without an error, and so are the tags of a marker. -/
theorem Tag.ofMarker_of_forms (marker : Text) (log : Log) :
    (ofMarker marker log).1.map Tag.raw = ((Text.words marker).filter (HasTagForm ·)).eraseDups ∧
    (∀ t ∈ (ofMarker marker log).1, t.binding.written = t.raw) ∧
    (ofMarker marker log).2 =
      ((Text.words marker).filter (¬HasTagForm ·)).foldl (fun log w => log.error (TagError.invalid w).message) log ∧
    (∀ bindings : List Binding, bindings.Nodup → (∀ a ∈ bindings, a.Readable) → ∀ log',
      ofMarker (Binding.writtenAll bindings) log' = (bindings.map fun a => ⟨a.written, a⟩, log')) ∧
    ∀ log', ofMarker (Binding.writtenAll ((ofMarker marker log).1.map Tag.binding)) log' = ((ofMarker marker log).1, log') := by
  have hvalid : (Text.words marker).filter (HasTagForm ·) = validWords marker :=
    List.filter_congr fun w _ => by rw [Bool.eq_iff_iff, decide_eq_true_iff, hasTagForm_iff]
  have hinvalid : (Text.words marker).filter (¬HasTagForm ·) = invalidWords marker :=
    List.filter_congr fun w _ => by rw [Bool.eq_iff_iff, decide_eq_true_iff, hasTagForm_iff, Bool.not_eq_true', Bool.not_eq_true]
  rw [hvalid, hinvalid, ofMarker_fst]
  refine ⟨map_raw_among marker, fun t ht => (readable_of_mem_among ht).2.symm, ofMarker_snd marker log,
    fun bindings hn hr => ofMarker_writtenAll hr hn, fun log' => ?_⟩
  -- the bindings are different because the tags are
  have hraw : ((among marker).map Tag.binding).map Binding.written = (among marker).map Tag.raw := by
    rw [List.map_map]
    exact List.map_congr_left fun t ht => (readable_of_mem_among ht).2.symm
  have hnodup : ((among marker).map Tag.binding).Nodup := List.Nodup.of_map _ (hraw ▸ nodup_among marker)
  have hreadable : ∀ a ∈ (among marker).map Tag.binding, a.Readable := by
    intro a ha
    obtain ⟨t, ht, rfl⟩ := List.mem_map.1 ha
    exact (readable_of_mem_among ht).1
  have hsame : ((among marker).map Tag.binding).map (fun a => (⟨a.written, a⟩ : Tag)) = among marker := by
    rw [List.map_map]
    refine (List.map_congr_left fun t ht => ?_).trans (List.map_id _)
    rw [Function.comp_apply, ← (readable_of_mem_among ht).2]
    rfl
  rw [ofMarker_writtenAll hreadable hnodup, hsame]

/-- A marker with a tag, a word that is none, and the tag once more; and two bindings of words that are read back. -/
theorem Tag.ofMarker_of_forms_mixed :
    let bindings : List Binding := [⟨some "shop".toList, .attribute "title".toList, some "a1b2c3".toList⟩, ⟨none, .text, none⟩]
    (ofMarker "shop:title a#b#c shop:title" .empty).1.map Tag.raw = ["shop:title".toList] ∧
    (ofMarker "shop:title a#b#c shop:title" .empty).2 = Log.empty.error "Invalid gettext tag: a#b#c" ∧
    bindings.Nodup ∧ (∀ a ∈ bindings, a.Readable) ∧
    ofMarker (Binding.writtenAll bindings) .empty = (bindings.map fun a => ⟨a.written, a⟩, .empty) := by
  intro bindings
  obtain ⟨htags, -, hlog, hback, -⟩ := ofMarker_of_forms "shop:title a#b#c shop:title" .empty
  have hnodup : bindings.Nodup := by decide +kernel
  have hreadable : ∀ a ∈ bindings, a.Readable := by
    intro a ha
    obtain rfl | rfl : a = _ ∨ a = _ := by simpa [bindings] using ha
    · have hkeyword : isWord "title" = true := by decide +kernel
      exact ⟨by decide +kernel, hkeyword, by decide +kernel⟩
    · exact ⟨nofun, trivial, nofun⟩
  exact ⟨htags.trans (by decide +kernel), hlog.trans (by decide +kernel), hnodup, hreadable, hback bindings hnodup hreadable .empty⟩

end LocalePages
