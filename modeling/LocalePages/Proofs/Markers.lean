import LocalePages.Proofs.Logs
import LocalePages.Proofs.Texts
import LocalePages.Tag
import Mathlib.Data.List.Induction
import Mathlib.Data.List.Nodup

/-!
# Markers are read as they were written

A binding is readable when its domain, its attribute and its hash are words. Reading a tag gives exactly the readable binding that
is written like it (`Binding.parse_eq_ok_iff`), so that the text of a tag and its binding determine each other. A marker written
from different readable bindings is read back as these bindings, and nothing is logged (`Tag.ofMarker_writtenAll`).
-/

namespace LocalePages

/-- Whether a keyword can be read back: the name of an attribute is a word. -/
def Keyword.Readable : Keyword → Prop
  | .text => True
  | .attribute name => isWord name = true

/-- Whether a binding can be read back: everything in it is a word. -/
structure Binding.Readable (a : Binding) : Prop where
  domain : ∀ d ∈ a.domain, isWord d = true
  keyword : a.keyword.Readable
  hash : ∀ h ∈ a.hash, isWord h = true

/-! ## Words of tags -/

/-- A word of a tag holds none of the characters that stand between words. -/
theorem not_mem_of_isWord {t : Text} {c : Char} (h : isWord t = true) (hc : isWordChar c = false) : c ∉ t := by
  intro hm
  simp only [isWord, Bool.and_eq_true, List.all_eq_true] at h
  simp [h.2 c hm] at hc

/-- A word of a tag is not empty. -/
theorem ne_nil_of_isWord {t : Text} (h : isWord t = true) : t ≠ [] := by
  rintro rfl
  simp [isWord] at h

/-- No character of a word of a tag is blank. -/
theorem isBlank_of_isWordChar {c : Char} (h : isWordChar c = true) : isBlank c = false := by
  cases hb : isBlank c
  · rfl
  · simp only [isBlank, Bool.or_eq_true, beq_iff_eq] at hb
    rcases hb with (((rfl | rfl) | rfl) | rfl) | rfl <;> simp [isWordChar] at h

/-- A word of a tag is solid. -/
theorem solid_of_isWord {t : Text} (h : isWord t = true) : t.Solid := by
  refine ⟨ne_nil_of_isWord h, fun c hc => isBlank_of_isWordChar ?_⟩
  simp only [isWord, Bool.and_eq_true, List.all_eq_true] at h
  exact h.2 c hc

namespace Keyword

/-- The keyword that is read is readable, and is written as it stood. -/
theorem eq_written_of_keyword? {t : Text} {k : Keyword} (h : Binding.keyword? t = some k) : k.Readable ∧ t = k.written := by
  unfold Binding.keyword? at h
  split at h
  · cases h
    exact ⟨trivial, by assumption⟩
  · split at h
    · cases h
      exact ⟨by assumption, rfl⟩
    · cases h

/-- A readable keyword is read back. -/
theorem keyword?_written {k : Keyword} (h : k.Readable) : Binding.keyword? k.written = some k := by
  rcases k with _ | name
  · rfl
  · have hw : isWord name = true := h
    have hn : name ≠ ['.'] := by
      rintro rfl
      exact absurd hw (by decide)
    simp [Binding.keyword?, written, hn, hw]

/-- A readable keyword holds neither of the characters around it. -/
theorem not_mem_written {k : Keyword} (h : k.Readable) {c : Char} (hc : isWordChar c = false) (hd : c ≠ '.') : c ∉ k.written := by
  rcases k with _ | name
  · simpa [written] using hd
  · exact not_mem_of_isWord h hc

/-- A readable keyword is solid. -/
theorem solid_written {k : Keyword} (h : k.Readable) : k.written.Solid := by
  rcases k with _ | name
  · refine ⟨List.cons_ne_nil _ _, fun c hc => ?_⟩
    rw [List.mem_singleton.1 hc]
    rfl
  · exact solid_of_isWord h

end Keyword

namespace Binding

/-! ## Reading one tag -/

/-- A readable binding without its domain is read back by the second half of reading. -/
theorem keywordAndHash?_written {a : Binding} (ha : a.Readable) :
    keywordAndHash? (written { a with domain := none }) = some (a.keyword, a.hash) := by
  have hk := Keyword.keyword?_written ha.keyword
  have hsharp := Keyword.not_mem_written ha.keyword (c := '#') (by decide) (by decide)
  cases hh : a.hash with
  | none => simp [written, keywordAndHash?, Text.cutAt?_eq_none hsharp, hk]
  | some hash =>
    have hw := ha.hash hash hh
    simp [written, keywordAndHash?, Text.cutAt?_append hash hsharp, hk, hw]

/-- What the second half of reading reads is readable, and is written as it stood. -/
theorem eq_written_of_keywordAndHash? {t : Text} {k : Keyword} {hash : Option Text}
    (h : keywordAndHash? t = some (k, hash)) :
    (Binding.mk none k hash).Readable ∧ t = written ⟨none, k, hash⟩ := by
  unfold keywordAndHash? at h
  split at h
  · rename_i keyword hash' hcut
    split at h
    · rename_i hw
      obtain ⟨k', hk, hkh⟩ := Option.map_eq_some_iff.1 h
      cases hkh
      obtain ⟨hr, rfl⟩ := Keyword.eq_written_of_keyword? hk
      refine ⟨⟨by simp, hr, by simpa using hw⟩, ?_⟩
      simp [written, Text.eq_append_of_cutAt? hcut]
    · cases h
  · obtain ⟨k', hk, hkh⟩ := Option.map_eq_some_iff.1 h
    cases hkh
    obtain ⟨hr, rfl⟩ := Keyword.eq_written_of_keyword? hk
    exact ⟨⟨by simp, hr, by simp⟩, by simp [written]⟩

/-- A colon only ever ends the domain of a readable binding. -/
theorem colon_not_mem_written {a : Binding} (ha : a.Readable) : ':' ∉ written { a with domain := none } := by
  have hk := Keyword.not_mem_written ha.keyword (c := ':') (by decide) (by decide)
  cases hh : a.hash with
  | none => simpa [written, hh] using hk
  | some hash =>
    have hw := not_mem_of_isWord (ha.hash hash hh) (c := ':') (by decide)
    simp [written, hk, hw]

/-- A readable binding is read back. -/
theorem parse_written {a : Binding} (ha : a.Readable) : parse a.written = .ok a := by
  have hrest := keywordAndHash?_written ha
  obtain ⟨domain, k, hash⟩ := a
  cases domain with
  | none =>
    have hcut := Text.cutAt?_eq_none (colon_not_mem_written ha)
    unfold parse
    rw [hcut, hrest]
    rfl
  | some d =>
    have hd := ha.domain d rfl
    have hw : written ⟨some d, k, hash⟩ = d ++ ':' :: written ⟨none, k, hash⟩ := by simp [written]
    have hcut := Text.cutAt?_append (written ⟨none, k, hash⟩) (not_mem_of_isWord hd (c := ':') (by decide))
    unfold parse
    rw [hw, hcut]
    simp only [hd, if_true]
    rw [hrest]
    rfl

/-- A tag that can be read has a readable binding, and is written like it. -/
theorem eq_written_of_parse {raw : Text} {a : Binding} (h : parse raw = .ok a) : a.Readable ∧ raw = a.written := by
  unfold parse at h
  simp only at h
  split at h
  · rename_i b hb
    cases h
    split at hb
    · rename_i domain rest hcut
      split at hb
      · rename_i hd
        obtain ⟨⟨k, hash⟩, hk, rfl⟩ := Option.map_eq_some_iff.1 hb
        obtain ⟨hr, rfl⟩ := eq_written_of_keywordAndHash? hk
        refine ⟨⟨by simpa using hd, hr.keyword, hr.hash⟩, ?_⟩
        simp [written, Text.eq_append_of_cutAt? hcut]
      · cases hb
    · obtain ⟨⟨k, hash⟩, hk, rfl⟩ := Option.map_eq_some_iff.1 hb
      exact eq_written_of_keywordAndHash? hk
  · cases h

/-- Reading a tag gives exactly the readable binding that is written like it. -/
theorem parse_eq_ok_iff {raw : Text} {a : Binding} : parse raw = .ok a ↔ a.Readable ∧ raw = a.written :=
  ⟨eq_written_of_parse, fun ⟨ha, hraw⟩ => hraw ▸ parse_written ha⟩

/-- What cannot be read is said to be invalid, as it stood. -/
theorem eq_invalid_of_parse {raw : Text} {e : TagError} (h : parse raw = .error e) : e = .invalid raw := by
  unfold parse at h
  simp only at h
  split at h
  · cases h
  · exact (Except.error.inj h).symm

/-- Readable bindings that are written alike are the same. -/
theorem written_inj {a b : Binding} (ha : a.Readable) (hb : b.Readable) (h : a.written = b.written) : a = b := by
  have hab := parse_written ha
  rw [h, parse_written hb] at hab
  exact (Except.ok.inj hab).symm

/-- A readable binding is written without a blank. -/
theorem solid_written {a : Binding} (ha : a.Readable) : a.written.Solid := by
  obtain ⟨hne, hk⟩ := Keyword.solid_written ha.keyword
  have hdomain : ∀ d, a.domain = some d → ∀ c ∈ d, isBlank c = false := fun d hd => (solid_of_isWord (ha.domain d hd)).2
  have hhash : ∀ t, a.hash = some t → ∀ c ∈ t, isBlank c = false := fun t ht => (solid_of_isWord (ha.hash t ht)).2
  refine ⟨by simp [written, hne], fun c hc => ?_⟩
  simp only [written, List.mem_append] at hc
  rcases hc with (hc | hc) | hc
  · split at hc
    · rename_i d hd
      rcases List.mem_append.1 hc with hc | hc
      · exact hdomain d hd c hc
      · rw [List.mem_singleton.1 hc]
        decide
    · cases hc
  · exact hk c hc
  · split at hc
    · rename_i t ht
      rcases List.mem_append.1 hc with hc | hc
      · rw [List.mem_singleton.1 hc]
        decide
      · exact hhash t ht c hc
    · cases hc

/-- The words of a marker of readable bindings are the bindings as they are written. -/
theorem words_writtenAll {bindings : List Binding} (h : ∀ a ∈ bindings, a.Readable) :
    Text.words (writtenAll bindings) = bindings.map written := by
  refine Text.words_joinWith fun w hw => ?_
  obtain ⟨a, ha, rfl⟩ := List.mem_map.1 hw
  exact solid_written (h a ha)

/-- A marker of readable bindings says nothing twice exactly when the bindings are different. -/
theorem nodup_words_writtenAll_iff {bindings : List Binding} (h : ∀ a ∈ bindings, a.Readable) :
    (Text.words (writtenAll bindings)).Nodup ↔ bindings.Nodup := by
  rw [words_writtenAll h]
  exact ⟨List.Nodup.of_map _, fun hn => hn.map_on fun a ha b hb => written_inj (h a ha) (h b hb)⟩

/-- Lists of readable bindings that are written alike are the same. -/
theorem writtenAll_inj {bs cs : List Binding} (hb : ∀ a ∈ bs, a.Readable) (hc : ∀ a ∈ cs, a.Readable)
    (h : writtenAll bs = writtenAll cs) : bs = cs := by
  have hw : bs.map written = cs.map written := by rw [← words_writtenAll hb, h, words_writtenAll hc]
  have hread : ∀ {ds : List Binding}, (∀ a ∈ ds, a.Readable) → (ds.map written).map parse = ds.map Except.ok := by
    intro ds hd
    rw [List.map_map]
    exact List.map_congr_left fun a ha => parse_written (hd a ha)
  exact (List.map_inj_right fun _ _ => Except.ok.inj).1 (by rw [← hread hb, hw, hread hc])

end Binding

namespace Tag

/-! ## Reading a marker -/

/-- What one more word of a marker does: a word that was there before is dropped, a tag is taken in, and an error is logged for a
word that is no tag. -/
theorem addWord_cases (read : List Tag × Log) (raw : Text) :
    (raw ∈ read.1.map Tag.raw ∧ addWord read raw = read) ∨
    (∃ a, raw ∉ read.1.map Tag.raw ∧ Binding.parse raw = .ok a ∧ addWord read raw = (read.1 ++ [⟨raw, a⟩], read.2)) ∨
    ∃ e, raw ∉ read.1.map Tag.raw ∧ Binding.parse raw = .error e ∧ addWord read raw = (read.1, read.2.error e.message) := by
  have hany : (read.1.any fun t => t.raw == raw) = true ↔ raw ∈ read.1.map Tag.raw := by
    simp only [List.any_eq_true, beq_iff_eq, List.mem_map]
  by_cases hraw : raw ∈ read.1.map Tag.raw
  · exact Or.inl ⟨hraw, by simp only [addWord, if_pos (hany.2 hraw)]⟩
  · right
    simp only [addWord, if_neg (mt hany.1 hraw)]
    cases hp : Binding.parse raw with
    | ok a => exact Or.inl ⟨a, hraw, rfl, rfl⟩
    | error e => exact Or.inr ⟨e, hraw, rfl, rfl⟩

/-- The tags of a marker. What is logged on the way is left out. -/
def among (marker : Text) : List Tag := (ofMarker marker .empty).1

/-- What was logged before does not matter for the tags that are read. -/
theorem foldl_addWord_fst (ws : List Text) (log log' : Log) :
    (ws.foldl addWord ([], log)).1 = (ws.foldl addWord ([], log')).1 := by
  induction ws using List.reverseRecOn with
  | nil => rfl
  | append_singleton ws w ih =>
    simp only [List.foldl_append, List.foldl_cons, List.foldl_nil]
    rcases addWord_cases (ws.foldl addWord ([], log)) w with ⟨hw, h⟩ | ⟨a, hw, hp, h⟩ | ⟨e, hw, hp, h⟩ <;>
      rcases addWord_cases (ws.foldl addWord ([], log')) w with ⟨hw', h'⟩ | ⟨a', hw', hp', h'⟩ | ⟨e', hw', hp', h'⟩ <;>
      simp_all

/-- The tags of a marker are those that are read from it, whatever the log. -/
theorem ofMarker_fst (marker : Text) (log : Log) : (ofMarker marker log).1 = among marker :=
  foldl_addWord_fst _ _ _

/-- Taking words in extends the log. -/
theorem extends_foldl_addWord (log : Log) (ws : List Text) : log.Extends (ws.foldl addWord ([], log)).2 := by
  induction ws using List.reverseRecOn with
  | nil => exact Log.Extends.refl log
  | append_singleton ws w ih =>
    simp only [List.foldl_append, List.foldl_cons, List.foldl_nil]
    rcases addWord_cases (ws.foldl addWord ([], log)) w with ⟨-, h⟩ | ⟨a, -, -, h⟩ | ⟨e, -, -, h⟩
    · rw [h]
      exact ih
    · rw [h]
      exact ih
    · rw [h]
      exact ih.trans (Log.extends_add _ _ _)

/-- Reading a marker extends the log. -/
theorem extends_ofMarker (marker : Text) (log : Log) : log.Extends (ofMarker marker log).2 :=
  extends_foldl_addWord log _

/-- The tags of a marker stand in the order of its words, each at one of them. -/
theorem among_sublist (marker : Text) : ((among marker).map Tag.raw).Sublist (Text.words marker) := by
  unfold among ofMarker
  induction Text.words marker using List.reverseRecOn with
  | nil => exact List.Sublist.refl _
  | append_singleton ws w ih =>
    simp only [List.foldl_append, List.foldl_cons, List.foldl_nil]
    rcases addWord_cases (ws.foldl addWord ([], .empty)) w with ⟨-, h⟩ | ⟨a, -, -, h⟩ | ⟨e, -, -, h⟩
    · rw [h]
      exact ih.trans (List.sublist_append_left _ _)
    · rw [h, List.map_append]
      exact ih.append (List.Sublist.refl [w])
    · rw [h]
      exact ih.trans (List.sublist_append_left _ _)

/-- No tag of a marker is read twice. -/
theorem nodup_among (marker : Text) : ((among marker).map Tag.raw).Nodup := by
  unfold among ofMarker
  induction Text.words marker using List.reverseRecOn with
  | nil => exact List.nodup_nil
  | append_singleton ws w ih =>
    simp only [List.foldl_append, List.foldl_cons, List.foldl_nil]
    rcases addWord_cases (ws.foldl addWord ([], .empty)) w with ⟨-, h⟩ | ⟨a, hw, -, h⟩ | ⟨e, -, -, h⟩
    · rw [h]
      exact ih
    · rw [h, List.map_append, List.map_singleton]
      exact ih.append (List.nodup_singleton w) (List.disjoint_singleton.2 hw)
    · rw [h]
      exact ih

/-- Every tag that was taken in was read from its own text. -/
theorem parse_of_mem_foldl_addWord {ws : List Text} {log : Log} {t : Tag} (h : t ∈ (ws.foldl addWord ([], log)).1) :
    Binding.parse t.raw = .ok t.binding := by
  induction ws using List.reverseRecOn with
  | nil => cases h
  | append_singleton ws w ih =>
    simp only [List.foldl_append, List.foldl_cons, List.foldl_nil] at h
    rcases addWord_cases (ws.foldl addWord ([], log)) w with ⟨-, hr⟩ | ⟨a, -, hp, hr⟩ | ⟨e, -, -, hr⟩
    · exact ih (hr ▸ h)
    · rw [hr] at h
      rcases List.mem_append.1 h with h | h
      · exact ih h
      · rw [List.mem_singleton.1 h]
        exact hp
    · rw [hr] at h
      exact ih h

/-- Every tag of a marker is read from its own text. -/
theorem parse_of_mem_among {marker : Text} {t : Tag} (h : t ∈ among marker) : Binding.parse t.raw = .ok t.binding :=
  parse_of_mem_foldl_addWord h

/-- The binding of a tag of a marker is readable, and is written like the tag. -/
theorem readable_of_mem_among {marker : Text} {t : Tag} (h : t ∈ among marker) :
    t.binding.Readable ∧ t.raw = t.binding.written :=
  Binding.eq_written_of_parse (parse_of_mem_among h)

/-! ## Words that are tags, and others -/

/-- The words of a marker that are tags, each as often as it occurs. -/
def validWords (marker : Text) : List Text := (Text.words marker).filter fun w => (Binding.parse w).toBool

/-- The tags of a marker are its words that are tags, in order and each once. -/
theorem map_raw_among (marker : Text) : (among marker).map Tag.raw = (validWords marker).eraseDups := by
  unfold among ofMarker validWords
  induction Text.words marker using List.reverseRecOn with
  | nil => rfl
  | append_singleton ws w ih =>
    have hknown : w ∈ (ws.foldl addWord ([], .empty)).1.map Tag.raw ↔ w ∈ ws ∧ (Binding.parse w).toBool = true := by
      rw [ih, List.mem_eraseDups, List.mem_filter]
    simp only [List.foldl_append, List.foldl_cons, List.foldl_nil, List.filter_append, List.eraseDups_append, ← ih]
    rcases addWord_cases (ws.foldl addWord ([], .empty)) w with ⟨hw, h⟩ | ⟨a, hw, hp, h⟩ | ⟨e, -, hp, h⟩
    · have hvalid := (hknown.1 hw).2
      simp [h, hvalid, List.removeAll, (hknown.1 hw).1]
    · have hnew : w ∉ ws := fun hws => hw (hknown.2 ⟨hws, by rw [hp]; rfl⟩)
      have hvalid : (Binding.parse w).toBool = true := by rw [hp]; rfl
      simp [h, hvalid, List.removeAll, hnew, List.eraseDups_cons]
    · have hinvalid : (Binding.parse w).toBool = false := by rw [hp]; rfl
      simp [h, hinvalid, List.removeAll]

/-- The words of a marker that are no tags, each as often as it occurs. -/
def invalidWords (marker : Text) : List Text := (Text.words marker).filter fun w => !(Binding.parse w).toBool

/-- Reading a marker logs an error for every occurrence of a word that is no tag, and nothing else. -/
theorem ofMarker_snd (marker : Text) (log : Log) :
    (ofMarker marker log).2 = (invalidWords marker).foldl (fun log w => log.error (TagError.invalid w).message) log := by
  unfold ofMarker invalidWords
  induction Text.words marker using List.reverseRecOn with
  | nil => rfl
  | append_singleton ws w ih =>
    simp only [List.foldl_append, List.foldl_cons, List.foldl_nil, List.filter_append]
    rcases addWord_cases (ws.foldl addWord ([], log)) w with ⟨hw, h⟩ | ⟨a, -, hp, h⟩ | ⟨e, -, hp, h⟩
    · -- a word that was there before and is in the list of tags was read as one
      obtain ⟨t, ht, rfl⟩ := List.mem_map.1 hw
      simp [h, ih, parse_of_mem_foldl_addWord ht, Except.toBool]
    · simp [h, ih, hp, Except.toBool]
    · rw [h, ih, Binding.eq_invalid_of_parse hp]
      simp [hp, Except.toBool]

/-- The errors of a marker are the messages of its words that are no tags. -/
theorem messages_ofMarker (marker : Text) (log : Log) :
    (ofMarker marker log).2.messages .error =
      log.messages .error ++ (invalidWords marker).map fun w => log.shortened (TagError.invalid w).message := by
  rw [ofMarker_snd]
  induction invalidWords marker generalizing log with
  | nil => exact (List.append_nil _).symm
  | cons w ws ih =>
    rw [List.foldl_cons, ih, Log.messages_error_error, List.map_cons, List.append_assoc]
    rfl

/-- How many errors are logged on reading a marker. -/
theorem count_ofMarker (marker : Text) (log : Log) :
    (ofMarker marker log).2.count .error = log.count .error + (invalidWords marker).length := by
  rw [← Log.length_messages, messages_ofMarker, List.length_append, List.length_map, Log.length_messages]

/-- A marker that was written from different readable bindings is read back, and nothing is logged. -/
theorem ofMarker_writtenAll {bindings : List Binding} (hr : ∀ a ∈ bindings, a.Readable) (hn : bindings.Nodup) (log : Log) :
    ofMarker (Binding.writtenAll bindings) log = (bindings.map fun a => ⟨a.written, a⟩, log) := by
  rw [ofMarker, Binding.words_writtenAll hr]
  induction bindings using List.reverseRecOn with
  | nil => rfl
  | append_singleton bs a ih =>
    obtain ⟨hbs, -, hd⟩ := List.nodup_append.1 hn
    have ha : a.Readable := hr a (by simp)
    have hbr : ∀ b ∈ bs, b.Readable := fun b hb => hr b (List.mem_append_left _ hb)
    rw [List.map_append, List.foldl_append, ih hbr hbs]
    simp only [List.map_cons, List.map_nil, List.foldl_cons, List.foldl_nil]
    have hnew : a.written ∉ (bs.map fun b => (⟨b.written, b⟩ : Tag)).map Tag.raw := by
      intro hm
      simp only [List.map_map, List.mem_map, Function.comp_apply] at hm
      obtain ⟨b, hb, hw⟩ := hm
      exact hd b hb a (by simp) (Binding.written_inj (hbr b hb) ha hw)
    rcases addWord_cases (bs.map fun b => (⟨b.written, b⟩ : Tag), log) a.written with ⟨h, -⟩ | ⟨b, -, hp, h⟩ | ⟨e, -, hp, -⟩
    · exact absurd h hnew
    · rw [Binding.parse_written ha] at hp
      cases hp
      simpa using h
    · rw [Binding.parse_written ha] at hp
      cases hp

/-- When as many tags are read from a marker as bindings were written to it, the bindings are different. -/
theorem nodup_of_length_among {bindings : List Binding} (hr : ∀ a ∈ bindings, a.Readable)
    (h : (among (Binding.writtenAll bindings)).length = bindings.length) : bindings.Nodup := by
  have hsub := among_sublist (Binding.writtenAll bindings)
  rw [Binding.words_writtenAll hr] at hsub
  have heq := hsub.eq_of_length (by simpa using h)
  exact List.Nodup.of_map _ (heq ▸ nodup_among _)

end Tag

end LocalePages
