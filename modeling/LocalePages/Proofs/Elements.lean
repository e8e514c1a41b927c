import LocalePages.Page.Sweep
import LocalePages.Proofs.Markers
import Mathlib.Data.Char
import Mathlib.Data.List.Lex
import Mathlib.Data.Prod.Lex

/-!
# What writing does to an element

Writes for different keywords do not disturb each other, and of two writes for one keyword the later one counts. A run of writes
(`Element.writeAll`) is thus known by the last value it has for each keyword (`lastWrite?`): it leaves the element as it is
exactly when each of these values is there already (`Element.writeAll_eq_self_iff`). Nothing here asks for the attributes to be
in order.
-/

namespace LocalePages

/-! ## Attributes -/

/-- The place of an attribute in the order of attributes. -/
def Attr.key (a : Attr) : ℕ ×ₗ List Char := toLex (a.space.rank, a.name)

namespace Attr

/-- Vocabularies of one rank are the same. -/
theorem rank_inj {s t : AttrSpace} (h : s.rank = t.rank) : s = t := by
  cases s <;> cases t <;> first | rfl | cases h

/-- Two attributes have one name exactly when they have one place. -/
theorem sameName_iff {a b : Attr} : a.sameName b = true ↔ a.key = b.key := by
  simp only [sameName, key, Bool.and_eq_true, beq_iff_eq, EmbeddingLike.apply_eq_iff_eq, Prod.mk.injEq]
  exact ⟨fun ⟨hs, hn⟩ => ⟨congrArg _ hs, hn⟩, fun ⟨hs, hn⟩ => ⟨rank_inj hs, hn⟩⟩

/-- The order of attributes is that of their places. -/
theorem before_iff {a b : Attr} : a.before b = true ↔ a.key < b.key := by
  simp only [before, key, Bool.or_eq_true, Bool.and_eq_true, decide_eq_true_eq, beq_iff_eq, Prod.Lex.toLex_lt_toLex]

end Attr

namespace Attrs

/-- Putting an attribute beside a first one, by their places. -/
theorem put_cons (a c : Attr) (rest : Attrs) :
    put (c :: rest) a =
      if a.key = c.key then a :: rest else if a.key < c.key then a :: c :: rest else c :: put rest a := by
  simp only [put, Attr.sameName_iff, Attr.before_iff]

/-- Of two attributes with one name the one that is put last counts. -/
theorem put_put_of_key_eq {a b : Attr} (h : a.key = b.key) (attrs : Attrs) : (attrs.put a).put b = attrs.put b := by
  induction attrs with
  | nil => simp [put, Attr.sameName_iff, h]
  | cons c rest ih =>
    simp only [put_cons a c, put_cons b c, h]
    split
    · simp [put_cons, h]
    · split
      · simp [put_cons, h]
      · rename_i hne hlt
        rw [put_cons, if_neg hne, if_neg hlt, ih]

/-- Attributes with different names can be put in either order. -/
theorem put_comm {a b : Attr} (h : a.key ≠ b.key) (attrs : Attrs) : (attrs.put a).put b = (attrs.put b).put a := by
  wlog hab : a.key < b.key generalizing a b
  · exact (this h.symm (lt_of_le_of_ne (not_lt.1 hab) h.symm)).symm
  induction attrs with
  | nil => simp [put, Attr.sameName_iff, Attr.before_iff, h, h.symm, hab, hab.not_gt]
  | cons c rest ih =>
    rcases lt_trichotomy a.key c.key with hac | hac | hac
    · -- `b` may come before, at or after `c`, and `a` stands before all of them
      rw [put_cons a c, if_neg hac.ne, if_pos hac, put_cons b a, if_neg h.symm, if_neg hab.not_gt, put_cons b c]
      split
      · rw [put_cons, if_neg h, if_pos hab]
      · split
        · rw [put_cons, if_neg h, if_pos hab]
        · rw [put_cons, if_neg hac.ne, if_pos hac]
    · have hcb : ¬b.key < c.key := hac ▸ hab.not_gt
      have hne : b.key ≠ c.key := hac ▸ h.symm
      rw [put_cons a c, if_pos hac, put_cons b a, if_neg h.symm, if_neg hab.not_gt, put_cons b c, if_neg hne, if_neg hcb,
        put_cons a c, if_pos hac]
    · have hbc : c.key < b.key := hac.trans hab
      rw [put_cons a c, if_neg hac.ne', if_neg hac.not_gt, put_cons b c, if_neg hbc.ne', if_neg hbc.not_gt, ih,
        put_cons b c, if_neg hbc.ne', if_neg hbc.not_gt, put_cons a c, if_neg hac.ne', if_neg hac.not_gt]

/-- Finding a value beside a first attribute. -/
theorem get?_cons (c : Attr) (rest : Attrs) (name : Text) :
    get? (c :: rest) name = if c.space = .none ∧ c.name = name then some c.value else rest.get? name := by
  simp only [get?, find?, List.find?_cons]
  split <;> simp_all

/-- Setting a value beside a first attribute. -/
theorem set_cons (c : Attr) (rest : Attrs) (name value : Text) :
    set (c :: rest) name value =
      if c.space = .none ∧ c.name = name then ⟨.none, name, value⟩ :: rest
      else if Attr.before ⟨.none, name, value⟩ c then ⟨.none, name, value⟩ :: c :: rest else c :: rest.set name value := by
  have hname : Attr.sameName ⟨.none, name, value⟩ c = true ↔ c.space = .none ∧ c.name = name := by
    simp only [Attr.sameName, Bool.and_eq_true, beq_iff_eq]
    exact ⟨fun ⟨hs, hn⟩ => ⟨hs.symm, hn.symm⟩, fun ⟨hs, hn⟩ => ⟨hs.symm, hn.symm⟩⟩
  simp only [set, put, hname]

/-- The value that was set is found. -/
theorem get?_set_self (attrs : Attrs) (name value : Text) : (attrs.set name value).get? name = some value := by
  induction attrs with
  | nil => simp [set, put, get?_cons]
  | cons c rest ih =>
    rw [set_cons]
    split
    · simp [get?_cons]
    · rename_i hc
      split
      · simp [get?_cons]
      · rw [get?_cons, if_neg hc, ih]

/-- Setting an attribute leaves the others as they are. -/
theorem get?_set_of_ne (attrs : Attrs) {name other : Text} (value : Text) (h : other ≠ name) :
    (attrs.set name value).get? other = attrs.get? other := by
  induction attrs with
  | nil => simp [set, put, get?_cons, h.symm]
  | cons c rest ih =>
    rw [set_cons]
    split
    · rename_i hc
      simp [get?_cons, hc.2, h.symm]
    · split
      · simp [get?_cons, h.symm]
      · rw [get?_cons, get?_cons, ih]

/-- Of two values that are set the last one counts. -/
theorem set_set (attrs : Attrs) (name v w : Text) : (attrs.set name v).set name w = attrs.set name w :=
  put_put_of_key_eq (a := ⟨.none, name, v⟩) (b := ⟨.none, name, w⟩) rfl attrs

/-- Different attributes can be set in either order. -/
theorem set_comm (attrs : Attrs) {m n : Text} (v w : Text) (h : m ≠ n) :
    (attrs.set m v).set n w = (attrs.set n w).set m v := by
  refine put_comm ?_ attrs
  simpa [Attr.key] using h

/-- There is an attribute where there is a value. -/
theorem has_eq_isSome_get? (attrs : Attrs) (name : Text) : attrs.has name = (attrs.get? name).isSome := by
  simp [has, get?]

end Attrs

/-! ## Single writes -/

/-- The values of a run of writes: keywords with what takes their place. -/
abbrev Writes := List (Keyword × Text)

/-- The value that a run of writes leaves for a keyword, if it writes one. -/
def lastWrite? (ws : Writes) (k : Keyword) : Option Text := ((ws.filter fun w => w.1 = k).getLast?).map Prod.snd

namespace Element

/-- The element after a run of writes. -/
def writeAll (e : Element) (ws : Writes) : Element := ws.foldl (fun e w => e.write w.1 w.2) e

/-- What was written is there. -/
theorem bound_write_self (e : Element) (k : Keyword) (v : Text) : (e.write k v).bound k = v := by
  rcases k with _ | name
  · simp [write, bound, Node.textContentsAll, Node.textContents]
  · simp [write, bound, Attrs.get?_set_self]

/-- Writing for one keyword leaves what the others are about. -/
theorem bound_write_of_ne (e : Element) {k l : Keyword} (v : Text) (h : l ≠ k) : (e.write k v).bound l = e.bound l := by
  rcases k with _ | name <;> rcases l with _ | other
  · exact absurd rfl h
  · rfl
  · rfl
  · have hn : other ≠ name := fun hn => h (congrArg _ hn)
    simp [write, bound, Attrs.get?_set_of_ne _ _ hn]

/-- Of two writes for one keyword the later one counts. -/
theorem write_write (e : Element) (k : Keyword) (v w : Text) : (e.write k v).write k w = e.write k w := by
  rcases k with _ | name
  · rfl
  · simp [write, Attrs.set_set]

/-- Writes for different keywords can be made in either order. -/
theorem write_comm (e : Element) {k l : Keyword} (v w : Text) (h : k ≠ l) :
    (e.write k v).write l w = (e.write l w).write k v := by
  rcases k with _ | m <;> rcases l with _ | n
  · exact absurd rfl h
  · rfl
  · rfl
  · have hn : m ≠ n := fun hn => h (congrArg _ hn)
    simp [write, Attrs.set_comm _ _ _ hn]

/-! ## Runs of writes -/

theorem writeAll_cons (e : Element) (k : Keyword) (v : Text) (ws : Writes) :
    e.writeAll ((k, v) :: ws) = (e.write k v).writeAll ws := rfl

theorem writeAll_append (e : Element) (ws vs : Writes) : e.writeAll (ws ++ vs) = (e.writeAll ws).writeAll vs :=
  List.foldl_append

end Element

theorem lastWrite?_nil (k : Keyword) : lastWrite? [] k = none := rfl

/-- The last value for a keyword, from the first write and the later ones. -/
theorem lastWrite?_cons (k l : Keyword) (v : Text) (ws : Writes) :
    lastWrite? ((l, v) :: ws) k = (lastWrite? ws k).or (if l = k then some v else none) := by
  by_cases h : l = k
  · cases hl : (ws.filter fun w => w.1 = k).getLast? <;>
      simp [lastWrite?, h, List.getLast?_cons, hl]
  · simp [lastWrite?, h]

/-- The last value for a keyword, from the earlier writes and the later ones. -/
theorem lastWrite?_append (ws vs : Writes) (k : Keyword) :
    lastWrite? (ws ++ vs) k = (lastWrite? vs k).or (lastWrite? ws k) := by
  induction ws with
  | nil => simp [lastWrite?_nil]
  | cons w ws ih =>
    obtain ⟨l, u⟩ := w
    rw [List.cons_append, lastWrite?_cons, lastWrite?_cons, ih, Option.or_assoc]

namespace Element

/-- What a keyword is about after a run of writes is the last value that was written for it. -/
theorem bound_writeAll (e : Element) (ws : Writes) (k : Keyword) :
    (e.writeAll ws).bound k = (lastWrite? ws k).getD (e.bound k) := by
  induction ws generalizing e with
  | nil => rfl
  | cons w ws ih =>
    obtain ⟨l, v⟩ := w
    rw [writeAll_cons, ih, lastWrite?_cons]
    cases lastWrite? ws k with
    | some u => rfl
    | none =>
      by_cases h : l = k
      · simp [h, bound_write_self]
      · simp [h, bound_write_of_ne _ _ (Ne.symm h)]

/-- A write whose keyword is written again later does not show. -/
theorem writeAll_write_of_lastWrite? {ws : Writes} {k : Keyword} (e : Element) (v : Text) (h : lastWrite? ws k ≠ none) :
    (e.write k v).writeAll ws = e.writeAll ws := by
  induction ws generalizing e with
  | nil => exact absurd rfl h
  | cons w ws ih =>
    obtain ⟨l, u⟩ := w
    rw [writeAll_cons, writeAll_cons]
    by_cases hl : l = k
    · rw [hl, write_write]
    · rw [write_comm _ _ _ (Ne.symm hl)]
      refine ih _ ?_
      simpa [lastWrite?_cons, hl] using h

/-- A write whose keyword is not written later may as well be made last. -/
theorem write_writeAll_comm {ws : Writes} {k : Keyword} (e : Element) (v : Text) (h : lastWrite? ws k = none) :
    (e.writeAll ws).write k v = (e.write k v).writeAll ws := by
  induction ws generalizing e with
  | nil => rfl
  | cons w ws ih =>
    obtain ⟨l, u⟩ := w
    rw [lastWrite?_cons, Option.or_eq_none_iff] at h
    have hl : l ≠ k := fun hl => by simp [hl] at h
    rw [writeAll_cons, writeAll_cons, ih _ h.1, write_comm _ _ _ hl]

/-- The last value of a run of writes is there already: writing it once more changes nothing. -/
theorem write_writeAll_of_lastWrite? {ws : Writes} {k : Keyword} {v : Text} (e : Element) (h : lastWrite? ws k = some v) :
    (e.writeAll ws).write k v = e.writeAll ws := by
  induction ws generalizing e with
  | nil => cases h
  | cons w ws ih =>
    obtain ⟨l, u⟩ := w
    rw [writeAll_cons]
    rw [lastWrite?_cons] at h
    cases hw : lastWrite? ws k with
    | some x =>
      rw [hw] at h
      exact ih _ (hw.trans h)
    | none =>
      rw [hw, Option.none_or] at h
      split at h
      · rename_i hl
        cases h
        rw [hl, write_writeAll_comm _ _ hw, write_write]
      · cases h

/-- A run of writes leaves an element as it is exactly when the last value for each keyword is there already. -/
theorem writeAll_eq_self_iff (e : Element) (ws : Writes) :
    e.writeAll ws = e ↔ ∀ k v, lastWrite? ws k = some v → e.write k v = e := by
  constructor
  · intro h k v hk
    have hw := write_writeAll_of_lastWrite? e hk
    rwa [h] at hw
  · intro h
    induction ws with
    | nil => rfl
    | cons w ws ih =>
      obtain ⟨l, u⟩ := w
      rw [writeAll_cons]
      cases hl : lastWrite? ws l with
      | some x =>
        rw [writeAll_write_of_lastWrite? e u (by simp [hl])]
        refine ih fun k v hk => h k v ?_
        rw [lastWrite?_cons, hk, Option.some_or]
      | none =>
        rw [h l u (by simp [lastWrite?_cons, hl])]
        refine ih fun k v hk => h k v ?_
        rw [lastWrite?_cons, hk, Option.some_or]

/-- A run of writes with one more after it leaves an element as it is exactly when the last one does and the others do for every
other keyword. -/
theorem write_writeAll_eq_self_iff (e : Element) (ws : Writes) (k : Keyword) (v : Text) :
    (e.writeAll ws).write k v = e ↔ e.write k v = e ∧ ∀ l t, l ≠ k → lastWrite? ws l = some t → e.write l t = e := by
  have hlast : ∀ l, lastWrite? (ws ++ [(k, v)]) l = if k = l then some v else lastWrite? ws l := by
    intro l
    rw [lastWrite?_append, lastWrite?_cons, lastWrite?_nil, Option.none_or]
    split <;> simp
  have happend : (e.writeAll ws).write k v = e.writeAll (ws ++ [(k, v)]) := by
    rw [writeAll_append]
    rfl
  rw [happend, writeAll_eq_self_iff]
  constructor
  · refine fun h => ⟨h k v (by rw [hlast, if_pos rfl]), fun l t hl ht => h l t ?_⟩
    rwa [hlast, if_neg (Ne.symm hl)]
  · rintro ⟨hk, hothers⟩ l t ht
    rw [hlast] at ht
    split at ht
    · rename_i hl
      cases ht
      exact hl ▸ hk
    · rename_i hl
      exact hothers l t (Ne.symm hl) ht

end Element

/-! ## Markers of elements -/

namespace Element

variable {mark : Text}

/-- The bindings of an element's tags. What is logged on reading its marker is left out. -/
def bindings (e : Element) (mark : Text) : List Binding := (Tag.among (e.marker mark)).map Tag.binding

theorem readable_of_mem_bindings {e : Element} {a : Binding} (h : a ∈ e.bindings mark) : a.Readable := by
  obtain ⟨t, ht, rfl⟩ := List.mem_map.1 h
  exact (Tag.readable_of_mem_among ht).1

/-- The bindings of an element are different. -/
theorem nodup_bindings (e : Element) : (e.bindings mark).Nodup := by
  have hraw : (Tag.among (e.marker mark)).map Tag.raw = (e.bindings mark).map Binding.written := by
    rw [bindings, List.map_map]
    exact List.map_congr_left fun t ht => (Tag.readable_of_mem_among ht).2
  exact List.Nodup.of_map _ (hraw ▸ Tag.nodup_among (e.marker mark))

/-- The marker of an element with a binding is not blank. -/
theorem canonical_marker_ne_nil {e : Element} {a : Binding} (h : a ∈ e.bindings mark) :
    e.canonical (.attribute mark) ≠ [] := by
  obtain ⟨t, ht, rfl⟩ := List.mem_map.1 h
  have hw := (Tag.among_sublist (e.marker mark)).subset (List.mem_map_of_mem ht)
  exact Text.canonical_ne_nil_of_mem_words hw

/-- The bindings of an element whose marker was written from different readable ones are these. -/
theorem bindings_of_marker {e : Element} {bindings : List Binding} (hr : ∀ a ∈ bindings, a.Readable) (hn : bindings.Nodup)
    (h : e.marker mark = Binding.writtenAll bindings) : e.bindings mark = bindings := by
  have hread := congrArg Prod.fst (Tag.ofMarker_writtenAll hr hn .empty)
  rw [Element.bindings, h, Tag.among, hread, List.map_map]
  exact List.map_id _

end Element

end LocalePages
