import LocalePages.Dictionary

/-!
# Who owns a key

The first text that is registered under a key owns it. `Dictionary.registerAll` registers texts one after the other; what is
under a key then is what was there before, or else the first of the texts with that key (`Dictionary.get?_registerAll`), and no
entry is there that was not registered.
-/

namespace LocalePages

namespace Dictionary

/-- Looking a key up beside a first entry. -/
theorem lookup_cons_eq (k l : DictionaryKey) (t : Text) (entries : List (DictionaryKey × Text)) :
    ((l, t) :: entries).lookup k = if k = l then some t else entries.lookup k := by
  rw [List.lookup_cons]
  by_cases h : k = l
  · simp [h]
  · have hb : (k == l) = false := beq_false_of_ne h
    rw [if_neg h, hb]

/-- An entry that is placed where its key has no text is found there, and no other key is disturbed. -/
theorem lookup_place (k l : DictionaryKey) (t : Text) (entries : List (DictionaryKey × Text)) (h : entries.lookup k = none) :
    (place k t entries).lookup l = if l = k then some t else entries.lookup l := by
  induction entries with
  | nil => rw [place, lookup_cons_eq]
  | cons e entries ih =>
    obtain ⟨m, u⟩ := e
    rw [lookup_cons_eq] at h
    split at h
    · cases h
    · rename_i hm
      unfold place
      split
      · rw [lookup_cons_eq]
      · rw [lookup_cons_eq, lookup_cons_eq, ih h]
        by_cases hl : l = k
        · subst hl
          simp [hm]
        · simp [hl]

/-- What is under a key after a registration. -/
theorem get?_register (d : Dictionary) (k l : DictionaryKey) (t : Text) :
    (d.register k t).1.get? l = if l = k then some ((d.get? k).getD t) else d.get? l := by
  unfold register
  split
  · rename_i h
    simp only [get?, lookup_place k l t d.entries h]
    simp only [get?] at h
    simp [h]
  · rename_i u h
    by_cases hl : l = k
    · simp [hl, h]
    · simp [hl]

/-- A text that is registered without a collision owns its key. -/
theorem get?_register_self {d : Dictionary} {k : DictionaryKey} {t : Text}
    (h : ∀ existing, (d.register k t).2 ≠ .collision existing) : (d.register k t).1.get? k = some t := by
  rw [get?_register, if_pos rfl]
  cases hkey : d.get? k with
  | none => rfl
  | some existing =>
    by_cases hsame : existing = t
    · rw [hsame, Option.getD_some]
    · exact absurd (by simp only [register, hkey, if_neg hsame]) (h existing)

/-- A text that is registered stays. -/
theorem get?_register_of_some {d : Dictionary} {l : DictionaryKey} {u : Text} (k : DictionaryKey) (t : Text)
    (h : d.get? l = some u) : (d.register k t).1.get? l = some u := by
  rw [get?_register]
  by_cases hl : l = k
  · subst hl
    simp [h]
  · simp [hl, h]

/-- Placing an entry among others adds it to them. -/
theorem perm_place (k : DictionaryKey) (t : Text) (entries : List (DictionaryKey × Text)) :
    (place k t entries).Perm ((k, t) :: entries) := by
  induction entries with
  | nil => exact List.Perm.refl _
  | cons e entries ih =>
    unfold place
    split
    · exact List.Perm.refl _
    · exact (ih.cons e).trans (List.Perm.swap _ _ _)

/-- An entry of a dictionary after a registration is the registered one, or was there before. -/
theorem mem_entries_register {d : Dictionary} {k : DictionaryKey} {t : Text} {e : DictionaryKey × Text}
    (h : e ∈ (d.register k t).1.entries) : e = (k, t) ∨ e ∈ d.entries := by
  unfold register at h
  split at h
  · exact List.mem_cons.1 ((perm_place k t d.entries).mem_iff.1 h)
  · exact Or.inr h

/-- A registration gives no key two entries. -/
theorem nodup_register {d : Dictionary} (h : (d.entries.map Prod.fst).Nodup) (k : DictionaryKey) (t : Text) :
    ((d.register k t).1.entries.map Prod.fst).Nodup := by
  unfold register
  split
  · rename_i hkey
    have hnew : k ∉ d.entries.map Prod.fst := by
      intro hk
      obtain ⟨e, he, rfl⟩ := List.mem_map.1 hk
      simpa using List.lookup_eq_none_iff.1 hkey e he
    rw [((perm_place k t d.entries).map Prod.fst).nodup_iff]
    exact List.nodup_cons.2 ⟨hnew, h⟩
  · exact h

/-- A text that is found is the text of an entry. -/
theorem mem_entries_of_get? {d : Dictionary} {k : DictionaryKey} {t : Text} (h : d.get? k = some t) : (k, t) ∈ d.entries := by
  obtain ⟨before, after, he, -⟩ := List.lookup_eq_some_iff.1 h
  simp [he]

/-- Where no key has two entries, an entry is what is found under its key. -/
theorem mem_entries_iff {d : Dictionary} (h : (d.entries.map Prod.fst).Nodup) {k : DictionaryKey} {t : Text} :
    (k, t) ∈ d.entries ↔ d.get? k = some t := by
  refine ⟨fun hmem => ?_, mem_entries_of_get?⟩
  obtain ⟨before, after, hentries⟩ := List.append_of_mem hmem
  refine List.lookup_eq_some_iff.2 ⟨before, after, hentries, fun e he => ?_⟩
  rw [hentries, List.map_append, List.map_cons] at h
  have hother : e.1 ≠ k := (List.nodup_append.1 h).2.2 e.1 (List.mem_map_of_mem he) k List.mem_cons_self
  simpa using hother.symm

/-- Texts with their domains: what is left when their hashes are. -/
def strings (texts : List (DictionaryKey × Text)) : List (Text × Text) := texts.map fun x => (x.1.domain, x.2)

/-! ## Registering one text after the other -/

/-- The dictionary after texts were registered, from one that is given. -/
def registerAll (d : Dictionary) (texts : List (DictionaryKey × Text)) : Dictionary :=
  texts.foldl (fun d x => (d.register x.1 x.2).1) d

theorem registerAll_cons (d : Dictionary) (k : DictionaryKey) (t : Text) (texts : List (DictionaryKey × Text)) :
    d.registerAll ((k, t) :: texts) = (d.register k t).1.registerAll texts := rfl

theorem registerAll_append (d : Dictionary) (texts more : List (DictionaryKey × Text)) :
    d.registerAll (texts ++ more) = (d.registerAll texts).registerAll more :=
  List.foldl_append

/-- Under a key is what was there before, or else the first text that is registered. -/
theorem get?_registerAll (d : Dictionary) (texts : List (DictionaryKey × Text)) (k : DictionaryKey) :
    (d.registerAll texts).get? k = (d.get? k).or (texts.lookup k) := by
  induction texts generalizing d with
  | nil => simp [registerAll]
  | cons x texts ih =>
    obtain ⟨l, t⟩ := x
    rw [registerAll_cons, ih, get?_register, lookup_cons_eq]
    by_cases hl : k = l
    · subst hl
      cases d.get? k <;> simp
    · simp [hl]

/-- A text stays while others are registered. -/
theorem get?_registerAll_of_some {d : Dictionary} {k : DictionaryKey} {t : Text} (texts : List (DictionaryKey × Text))
    (h : d.get? k = some t) : (d.registerAll texts).get? k = some t := by
  rw [get?_registerAll, h, Option.some_or]

/-- Every key that a text is registered under has a text. -/
theorem isSome_get?_registerAll {texts : List (DictionaryKey × Text)} {x : DictionaryKey × Text} (d : Dictionary)
    (h : x ∈ texts) :
    ((d.registerAll texts).get? x.1).isSome := by
  have hfound : (texts.lookup x.1).isSome := by
    rw [List.lookup_isSome_iff]
    exact ⟨x, h, beq_self_eq_true x.1⟩
  rw [get?_registerAll, Option.isSome_or, hfound, Bool.or_true]

/-- Every entry was there before or was registered. -/
theorem mem_of_mem_registerAll {d : Dictionary} {texts : List (DictionaryKey × Text)} {e : DictionaryKey × Text}
    (h : e ∈ (d.registerAll texts).entries) : e ∈ d.entries ∨ e ∈ texts := by
  induction texts generalizing d with
  | nil => exact Or.inl h
  | cons x texts ih =>
    rcases ih h with h | h
    · rcases mem_entries_register h with rfl | h
      · exact Or.inr List.mem_cons_self
      · exact Or.inl h
    · exact Or.inr (List.mem_cons_of_mem _ h)

/-- Registering texts gives no key two entries. -/
theorem nodup_registerAll {d : Dictionary} (h : (d.entries.map Prod.fst).Nodup) (texts : List (DictionaryKey × Text)) :
    ((d.registerAll texts).entries.map Prod.fst).Nodup := by
  induction texts generalizing d with
  | nil => exact h
  | cons x texts ih => exact ih (nodup_register h x.1 x.2)

/-! ## Texts that do not own their keys -/

/-- How many of some texts are not what a dictionary has under their keys. -/
def displaced (d : Dictionary) (texts : List (DictionaryKey × Text)) : Nat := texts.countP fun x => d.get? x.1 ≠ some x.2

/-- Whether texts own their keys does not change once there is something under these. -/
theorem displaced_registerAll {d : Dictionary} {texts : List (DictionaryKey × Text)} (more : List (DictionaryKey × Text))
    (h : ∀ x ∈ texts, (d.get? x.1).isSome) : (d.registerAll more).displaced texts = d.displaced texts := by
  refine List.countP_congr fun x hx => ?_
  obtain ⟨t, ht⟩ := Option.isSome_iff_exists.1 (h x hx)
  rw [get?_registerAll_of_some more ht, ht]

/-- A text that is registered does not own its key exactly when it collides with another one. -/
theorem displaced_register (d : Dictionary) (k : DictionaryKey) (t : Text) :
    (d.register k t).1.displaced [(k, t)] =
      match (d.register k t).2 with
      | .collision _ => 1
      | _ => 0 := by
  have hkey := get?_register d k k t
  rw [if_pos rfl] at hkey
  rw [displaced, List.countP_singleton, hkey]
  cases hbefore : d.get? k with
  | none => simp [register, hbefore]
  | some existing => by_cases hsame : existing = t <;> simp [register, hbefore, hsame]

end Dictionary

end LocalePages
