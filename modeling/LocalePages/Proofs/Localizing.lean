import LocalePages.Page.Localization
import LocalePages.Proofs.Building

/-!
# What localizing an element does

A tag with a hash that the dictionary knows is written, and so is a tag without one that is about something at its turn; any other
tag leaves the element as it is. Bindings are quiet on an element when none of those without a hash is about something at its turn
(`Localization.Quiet`): then localizing keeps the dictionary and the bindings, and writes exactly what `Localization.shown` lists
(`Localization.localizeElement_of_quiet`). An element is settled when localizing leaves it as it is (`Localization.Settled`,
`Localization.localizeElement_eq_self_iff`).
-/

namespace LocalePages

/-! ## Runs of writes as revisions -/

namespace Revision

/-- The revision after a run of writes. -/
def writeAll (r : Revision) (ws : Writes) : Revision := ws.foldl (fun r w => r.write w.1 w.2) r

/-- No change leaves an element as it is. -/
@[simp] theorem apply_keep (e : Element) : (keep e).apply e = e := rfl

/-- A revision writes what a write to the element does. -/
theorem apply_write (r : Revision) (k : Keyword) (v : Text) (e : Element) : (r.write k v).apply e = (r.apply e).write k v := by
  rcases k with _ | name <;> rfl

/-- A revision gives the marker the value that a write to the element does. -/
theorem apply_setMarker (r : Revision) (mark value : Text) (e : Element) :
    (r.setMarker mark value).apply e = (r.apply e).write (.attribute mark) value := rfl

theorem writeAll_append (r : Revision) (ws vs : Writes) : r.writeAll (ws ++ vs) = (r.writeAll ws).writeAll vs :=
  List.foldl_append

/-- A revision writes what a run of writes to the element does. -/
theorem apply_writeAll (r : Revision) (ws : Writes) (e : Element) : (r.writeAll ws).apply e = (r.apply e).writeAll ws := by
  induction ws generalizing r with
  | nil => rfl
  | cons w ws ih =>
    rw [Element.writeAll_cons, ← apply_write]
    exact ih _

/-- The text that a run of writes puts into an element is the last one that it has. -/
theorem text_writeAll (r : Revision) (ws : Writes) : (r.writeAll ws).text = (lastWrite? ws .text).or r.text := by
  induction ws generalizing r with
  | nil => rfl
  | cons w ws ih =>
    obtain ⟨k, v⟩ := w
    have h := ih (r.write k v)
    rw [lastWrite?_cons, Option.or_assoc]
    rcases k with _ | name
    · exact h
    · simpa [write, writeAll] using h

end Revision

/-- The marker of an element is one that localizing could have written: it stands for readable bindings, and writing it once more
changes nothing. -/
def Element.HasWrittenMarker (mark : Text) (e : Element) : Prop :=
  ∃ bindings, (∀ a ∈ bindings, a.Readable) ∧ e.marker mark = Binding.writtenAll bindings ∧
    e.write (.attribute mark) (Binding.writtenAll bindings) = e

namespace Localization

/-! ## What tags say -/

/-- The text that a binding with a hash stands for, if the dictionary knows it. -/
def resolved? (domain : Text) (dictionary : Dictionary) (a : Binding) : Option Text :=
  a.hash.bind fun hash => dictionary.get? ⟨a.domainOr domain, hash⟩

/-- Whether the dictionary knows the hashes of bindings. -/
def Resolves (domain : Text) (dictionary : Dictionary) (as : List Binding) : Prop :=
  ∀ a ∈ as, a.hash.isSome → (resolved? domain dictionary a).isSome

instance (domain : Text) (dictionary : Dictionary) (as : List Binding) : Decidable (Resolves domain dictionary as) :=
  inferInstanceAs (Decidable (∀ a ∈ as, _))

/-- The texts that bindings with known hashes stand for, with their domains, in order. -/
def askedFor (domain : Text) (dictionary : Dictionary) (as : List Binding) : List (Text × Text) :=
  as.filterMap fun a => (resolved? domain dictionary a).map fun canonical => (a.domainOr domain, canonical)

/-- What the catalogs say of the texts that bindings with known hashes stand for, in order. -/
def shown (s : Setting) (dictionary : Dictionary) (as : List Binding) : Writes :=
  as.filterMap fun a => (resolved? s.domain dictionary a).map fun canonical =>
    (a.keyword, s.lookup (a.domainOr s.domain) canonical s.locale)

/-- Bindings are quiet on an element when none of those without a hash is about anything at its turn, after what the earlier ones
show is there. -/
def Quiet (s : Setting) (dictionary : Dictionary) (e : Element) (as : List Binding) : Prop :=
  ∀ before a after, as = before ++ a :: after → a.hash = none →
    (e.writeAll (shown s dictionary before)).canonical a.keyword = []

section

variable {s : Setting} {dictionary : Dictionary} {e : Element}

theorem shown_cons (s : Setting) (dictionary : Dictionary) (a : Binding) (as : List Binding) :
    shown s dictionary (a :: as) = shown s dictionary [a] ++ shown s dictionary as :=
  List.filterMap_append (l := [a])

theorem askedFor_cons (domain : Text) (dictionary : Dictionary) (a : Binding) (as : List Binding) :
    askedFor domain dictionary (a :: as) = askedFor domain dictionary [a] ++ askedFor domain dictionary as :=
  List.filterMap_append (l := [a])

/-- Whether bindings are quiet is decided one after the other. -/
theorem quiet_cons_iff {a : Binding} {as : List Binding} :
    Quiet s dictionary e (a :: as) ↔
      (a.hash = none → e.canonical a.keyword = []) ∧ Quiet s dictionary (e.writeAll (shown s dictionary [a])) as := by
  constructor
  · refine fun h => ⟨h [] a as rfl, fun before b after has hb => ?_⟩
    have hlater := h (a :: before) b after (by rw [has, List.cons_append]) hb
    rwa [shown_cons, Element.writeAll_append] at hlater
  · rintro ⟨hfirst, hrest⟩ before b after has hb
    cases before with
    | nil =>
      cases has
      exact hfirst hb
    | cons c before =>
      cases has
      rw [shown_cons, Element.writeAll_append]
      exact hrest before b after rfl hb

/-- What is shown for a keyword comes from a binding with a hash. -/
theorem lastWrite?_shown_eq_none {as : List Binding} {k : Keyword} (h : ∀ a ∈ as, a.keyword = k → a.hash = none) :
    lastWrite? (shown s dictionary as) k = none := by
  have hnone : (shown s dictionary as).filter (fun w => w.1 = k) = [] := by
    refine List.filter_eq_nil_iff.2 fun w hw => ?_
    obtain ⟨a, ha, haw⟩ := List.mem_filterMap.1 hw
    obtain ⟨canonical, hcanonical, rfl⟩ := Option.map_eq_some_iff.1 haw
    intro hk
    rw [resolved?, h a ha (of_decide_eq_true hk), Option.bind_none] at hcanonical
    cases hcanonical
  rw [lastWrite?, hnone, List.getLast?_nil, Option.map_none]

/-- Bindings are quiet when those without a hash are about nothing and none with a hash is about the same. -/
theorem quiet_of_blank {as : List Binding}
    (h : ∀ a ∈ as, a.hash = none → e.canonical a.keyword = [] ∧ ∀ b ∈ as, b.keyword = a.keyword → b.hash = none) :
    Quiet s dictionary e as := by
  rintro before a after rfl hhash
  obtain ⟨hblank, hothers⟩ := h a (by simp) hhash
  have hunwritten : lastWrite? (shown s dictionary before) a.keyword = none :=
    lastWrite?_shown_eq_none fun b hb => hothers b (List.mem_append_left _ hb)
  rw [Element.canonical, Element.bound_writeAll, hunwritten, Option.getD_none]
  exact hblank

/-- A binding without a hash shows nothing. -/
theorem shown_of_hash_eq_none {a : Binding} (h : a.hash = none) : shown s dictionary [a] = [] := by
  simp [shown, resolved?, h]

/-- A binding without a hash asks for nothing. -/
theorem askedFor_of_hash_eq_none {domain : Text} {a : Binding} (h : a.hash = none) : askedFor domain dictionary [a] = [] := by
  simp [askedFor, resolved?, h]

end

/-! ## One tag -/

section

variable {s : Setting} {e : Element} {t : Tag} {r : Revision} {p : Progress}

/-- A tag that has a hash or is about nothing keeps its binding. It shows what its hash stands for, if it is known. -/
theorem localizeTag_of_quiet (h : t.binding.hash = none → (r.apply e).canonical t.binding.keyword = []) :
    ∃ log', localizeTag s e t r p =
        (t.binding, r.writeAll (shown s p.dictionary [t.binding]),
          ⟨p.dictionary, log', p.asked ++ askedFor s.domain p.dictionary [t.binding]⟩) ∧
      (Resolves s.domain p.dictionary [t.binding] → log' = p.log) := by
  cases hhash : t.binding.hash with
  | none =>
    refine ⟨p.log, ?_, fun _ => rfl⟩
    have hblank : ((r.apply e).canonical t.binding.keyword).isEmpty = true := by rw [h hhash, List.isEmpty_nil]
    simp only [localizeTag, hhash, hblank, if_true, shown_of_hash_eq_none hhash, askedFor_of_hash_eq_none hhash,
      List.append_nil]
    rfl
  | some hash =>
    cases hkey : p.dictionary.get? ⟨t.binding.domainOr s.domain, hash⟩ with
    | none =>
      refine ⟨(localizeTag s e t r p).2.2.log, ?_, fun hres => ?_⟩
      · simp [localizeTag, hhash, hkey, shown, askedFor, resolved?, Revision.writeAll]
      · have hknown := hres t.binding List.mem_cons_self
        simp [hhash, resolved?, hkey] at hknown
    | some canonical =>
      refine ⟨p.log, ?_, fun _ => rfl⟩
      simp [localizeTag, writeTag, hhash, hkey, shown, askedFor, resolved?, Revision.writeAll]

/-- A tag without a hash that is about something gets one. -/
theorem hash_localizeTag_of_ne (hhash : t.binding.hash = none) (h : (r.apply e).canonical t.binding.keyword ≠ []) :
    (localizeTag s e t r p).1.hash = some (textHash ((r.apply e).canonical t.binding.keyword)) := by
  have hne : ((r.apply e).canonical t.binding.keyword).isEmpty = false := List.isEmpty_eq_false_iff.2 h
  simp only [localizeTag, hhash, hne, Bool.false_eq_true, if_false]
  rfl

/-- What becomes of a binding can be read back. -/
theorem readable_localizeTag (h : t.binding.Readable) : (localizeTag s e t r p).1.Readable := by
  by_cases hquiet : t.binding.hash = none → (r.apply e).canonical t.binding.keyword = []
  · obtain ⟨log', heq, -⟩ := localizeTag_of_quiet (s := s) (p := p) hquiet
    rw [heq]
    exact h
  · obtain ⟨hhash, hne⟩ := Classical.not_imp.1 hquiet
    have hempty : ((r.apply e).canonical t.binding.keyword).isEmpty = false := List.isEmpty_eq_false_iff.2 hne
    simp only [localizeTag, hhash, hempty, Bool.false_eq_true, if_false, writeTag]
    refine ⟨h.domain, h.keyword, ?_⟩
    simpa [Template.keyOf] using isWord_textHash _

end

/-! ## The tags of an element -/

section

variable {s : Setting} {e : Element} {tags : List Tag} {r : Revision} {p : Progress}

/-- Quiet tags keep their bindings and the dictionary, and what they show is written. The log stays when all hashes are known. -/
theorem localizeTags_of_quiet (h : Quiet s p.dictionary (r.apply e) (tags.map Tag.binding)) :
    ∃ log', localizeTags s e tags r p =
        (tags.map Tag.binding, r.writeAll (shown s p.dictionary (tags.map Tag.binding)),
          ⟨p.dictionary, log', p.asked ++ askedFor s.domain p.dictionary (tags.map Tag.binding)⟩) ∧
      (Resolves s.domain p.dictionary (tags.map Tag.binding) → log' = p.log) := by
  induction tags generalizing r p with
  | nil => exact ⟨p.log, by simp [localizeTags, shown, askedFor, Revision.writeAll], fun _ => rfl⟩
  | cons t rest ih =>
    rw [List.map_cons, quiet_cons_iff] at h
    obtain ⟨log₁, htag, hlog₁⟩ := localizeTag_of_quiet (s := s) (p := p) h.1
    obtain ⟨log₂, hrest, hlog₂⟩ := @ih (r.writeAll (shown s p.dictionary [t.binding]))
      ⟨p.dictionary, log₁, p.asked ++ askedFor s.domain p.dictionary [t.binding]⟩ (by rw [Revision.apply_writeAll]; exact h.2)
    refine ⟨log₂, ?_, fun hres => ?_⟩
    · rw [localizeTags, htag]
      simp only [hrest, List.map_cons]
      rw [shown_cons _ _ _ (rest.map Tag.binding), askedFor_cons _ _ _ (rest.map Tag.binding), Revision.writeAll_append,
        List.append_assoc]
    · rw [List.map_cons] at hres
      have hfirst : Resolves s.domain p.dictionary [t.binding] := fun a ha =>
        hres a (by rw [List.mem_singleton.1 ha]; exact List.mem_cons_self)
      rw [hlog₂ fun a ha => hres a (List.mem_cons_of_mem _ ha)]
      exact hlog₁ hfirst

/-- Only quiet tags keep their bindings. -/
theorem quiet_of_localizeTags (h : (localizeTags s e tags r p).1 = tags.map Tag.binding) :
    Quiet s p.dictionary (r.apply e) (tags.map Tag.binding) := by
  induction tags generalizing r p with
  | nil =>
    intro before a after has
    simp at has
  | cons t rest ih =>
    rw [localizeTags, List.map_cons, List.cons.injEq] at h
    have hfirst : t.binding.hash = none → (r.apply e).canonical t.binding.keyword = [] := by
      intro hhash
      by_contra hne
      have hgot := hash_localizeTag_of_ne (s := s) (p := p) hhash hne
      rw [h.1, hhash] at hgot
      cases hgot
    obtain ⟨log', htag, -⟩ := localizeTag_of_quiet (s := s) (p := p) hfirst
    rw [htag] at h
    have hrest := @ih (r.writeAll (shown s p.dictionary [t.binding])) ⟨p.dictionary, log', _⟩ h.2
    rw [Revision.apply_writeAll] at hrest
    exact quiet_cons_iff.2 ⟨hfirst, hrest⟩

/-- There are as many bindings after localizing as before. -/
theorem length_localizeTags (tags : List Tag) (r : Revision) (p : Progress) :
    (localizeTags s e tags r p).1.length = tags.length := by
  induction tags generalizing r p with
  | nil => rfl
  | cons t rest ih => rw [localizeTags, List.length_cons, List.length_cons, ih]

/-- What localizing writes into a marker can be read back. -/
theorem readable_of_mem_localizeTags (h : ∀ t ∈ tags, t.binding.Readable) :
    ∀ a ∈ (localizeTags s e tags r p).1, a.Readable := by
  induction tags generalizing r p with
  | nil =>
    intro a ha
    cases ha
  | cons t rest ih =>
    intro a ha
    rw [localizeTags] at ha
    rcases List.mem_cons.1 ha with rfl | ha
    · exact readable_localizeTag (h t List.mem_cons_self)
    · exact ih (fun u hu => h u (List.mem_cons_of_mem _ hu)) a ha

end

/-! ## An element -/

/-- The revision that writes what the bindings of an element show, and leaves them in its marker. -/
def shownRevision (mark : Text) (s : Setting) (dictionary : Dictionary) (e : Element) : Revision :=
  ((Revision.keep e).writeAll (shown s dictionary (e.bindings mark))).setMarker mark (Binding.writtenAll (e.bindings mark))

/-- An element is calm when its bindings are quiet, their hashes are known, and there is nothing in its marker to log. -/
structure Calm (mark : Text) (s : Setting) (dictionary : Dictionary) (e : Element) : Prop where
  quiet : Quiet s dictionary e (e.bindings mark)
  resolves : Resolves s.domain dictionary (e.bindings mark)
  silent : ∀ log, (Tag.ofMarker (e.marker mark) log).2 = log

/-- An element is settled when its marker says nothing twice, none of its tags without a hash is about anything at its turn, and
what its tags show is there already. What a tag shows for the marker does not count: the marker is written after it. -/
structure Settled (mark : Text) (s : Setting) (dictionary : Dictionary) (e : Element) : Prop where
  distinct : (Text.words (e.marker mark)).Nodup
  quiet : Quiet s dictionary e (e.bindings mark)
  shown : ∀ k t, k ≠ .attribute mark → lastWrite? (shown s dictionary (e.bindings mark)) k = some t → e.write k t = e

section

variable {mark : Text} {s : Setting} {e : Element} {p : Progress}

/-- Localizing an element reads its marker, localizes the tags, and writes what became of their bindings into the marker. -/
theorem localizeElement_eq (mark : Text) (s : Setting) (e : Element) (p : Progress) :
    localizeElement mark s e p =
      let out := localizeTags s e (Tag.among (e.marker mark)) (Revision.keep e)
        ⟨p.dictionary, (Tag.ofMarker (e.marker mark) p.log).2, p.asked⟩
      (out.2.1.setMarker mark (Binding.writtenAll out.1), out.2.2) := by
  simp only [localizeElement, Tag.ofMarker_fst]

/-- An element with quiet bindings gets what they show, and the dictionary stays. The log stays when it stays on reading the
marker and all hashes are known. -/
theorem localizeElement_of_quiet (h : Quiet s p.dictionary e (e.bindings mark)) :
    ∃ log', localizeElement mark s e p =
        (shownRevision mark s p.dictionary e,
          ⟨p.dictionary, log', p.asked ++ askedFor s.domain p.dictionary (e.bindings mark)⟩) ∧
      (Resolves s.domain p.dictionary (e.bindings mark) → (Tag.ofMarker (e.marker mark) p.log).2 = p.log → log' = p.log) := by
  obtain ⟨log', htags, hlog⟩ :=
    @localizeTags_of_quiet s e (Tag.among (e.marker mark)) (Revision.keep e)
      ⟨p.dictionary, (Tag.ofMarker (e.marker mark) p.log).2, p.asked⟩ h
  refine ⟨log', ?_, fun hres hread => (hlog hres).trans hread⟩
  rw [localizeElement_eq, htags]
  rfl

/-- What becomes of a tag does not depend on the log, nor on what was asked for. -/
theorem localizeTag_congr (t : Tag) (r : Revision) {p q : Progress} (h : p.dictionary = q.dictionary) :
    (localizeTag s e t r p).1 = (localizeTag s e t r q).1 ∧ (localizeTag s e t r p).2.1 = (localizeTag s e t r q).2.1 ∧
      (localizeTag s e t r p).2.2.dictionary = (localizeTag s e t r q).2.2.dictionary := by
  obtain ⟨dictionary, log, asked⟩ := p
  obtain ⟨dictionary', log', asked'⟩ := q
  obtain rfl : dictionary = dictionary' := h
  unfold localizeTag
  dsimp only
  split
  · split <;> exact ⟨rfl, rfl, rfl⟩
  · split <;> exact ⟨rfl, rfl, rfl⟩

/-- What becomes of tags does not depend on the log, nor on what was asked for. -/
theorem localizeTags_congr (tags : List Tag) (r : Revision) {p q : Progress} (h : p.dictionary = q.dictionary) :
    (localizeTags s e tags r p).1 = (localizeTags s e tags r q).1 ∧
      (localizeTags s e tags r p).2.1 = (localizeTags s e tags r q).2.1 := by
  induction tags generalizing r p q with
  | nil => exact ⟨rfl, rfl⟩
  | cons t rest ih =>
    obtain ⟨hbinding, hrevision, hdictionary⟩ := localizeTag_congr (s := s) (e := e) t r h
    obtain ⟨hmore, hlast⟩ := ih (localizeTag s e t r q).2.1 hdictionary
    simp only [localizeTags, hbinding, hrevision, hmore, hlast, and_self]

/-- What becomes of an element does not depend on the log, nor on what was asked for. -/
theorem localizeElement_congr {p q : Progress} (h : p.dictionary = q.dictionary) :
    (localizeElement mark s e p).1 = (localizeElement mark s e q).1 := by
  obtain ⟨hbindings, hrevision⟩ := localizeTags_congr (s := s) (e := e) (Tag.among (e.marker mark)) (Revision.keep e)
    (p := ⟨p.dictionary, (Tag.ofMarker (e.marker mark) p.log).2, p.asked⟩)
    (q := ⟨q.dictionary, (Tag.ofMarker (e.marker mark) q.log).2, q.asked⟩) h
  simp only [localizeElement_eq, hbindings, hrevision]

/-- Localizing leaves a marker of as many readable bindings as tags are read, and each of them is as it was only when the tags are
quiet. -/
theorem exists_marker_localizeElement (mark : Text) (s : Setting) (e : Element) (p : Progress) :
    ∃ bindings r, (∀ a ∈ bindings, a.Readable) ∧ bindings.length = (Tag.among (e.marker mark)).length ∧
      (localizeElement mark s e p).1 = Revision.setMarker r mark (Binding.writtenAll bindings) ∧
      (bindings = e.bindings mark → Quiet s p.dictionary e (e.bindings mark)) := by
  rw [localizeElement_eq]
  refine ⟨_, _, ?_, length_localizeTags _ _ _, rfl, fun h => ?_⟩
  · exact readable_of_mem_localizeTags fun t ht => (Tag.readable_of_mem_among ht).1
  · exact quiet_of_localizeTags h

/-- What the shown revision leaves of an element. -/
theorem apply_shownRevision (mark : Text) (s : Setting) (dictionary : Dictionary) (e : Element) :
    (shownRevision mark s dictionary e).apply e =
      (e.writeAll (shown s dictionary (e.bindings mark))).write (.attribute mark) (Binding.writtenAll (e.bindings mark)) := by
  rw [shownRevision, Revision.apply_setMarker, Revision.apply_writeAll, Revision.apply_keep]

/-- What was written last for a keyword is there in an element that got the attributes and the text of a revision: writing it once
more changes nothing. -/
theorem write_eq_self_of_lastWrite? {ws : Writes} (value : Text) {f : Element} {k : Keyword} {t : Text}
    (hattrs : f.attrs = (((Revision.keep e).writeAll ws).setMarker mark value).attrs)
    (htext : ∀ u, (((Revision.keep e).writeAll ws).setMarker mark value).text = some u → f.children = [.text u])
    (hk : k ≠ .attribute mark) (ht : lastWrite? ws k = some t) : f.write k t = f := by
  rcases k with _ | name
  · have hchildren := htext t (by rw [Revision.setMarker, Revision.text_writeAll, ht, Option.some_or])
    rw [Element.write, ← hchildren]
  · have hkept : ((((Revision.keep e).writeAll ws).setMarker mark value).apply e).write (.attribute name) t =
        (((Revision.keep e).writeAll ws).setMarker mark value).apply e := by
      rw [Revision.apply_setMarker, Revision.apply_writeAll, Revision.apply_keep, Element.write_comm _ _ _ (Ne.symm hk),
        Element.write_writeAll_of_lastWrite? _ ht]
    have hset := congrArg Element.attrs hkept
    simp only [Element.write, Revision.apply, ← hattrs] at hset
    rw [Element.write, hset]

/-- What an element shows is there after it was revised. -/
theorem write_revised_shownRevision {dictionary : Dictionary} {k : Keyword} {t : Text} (hm : e.attrs.has mark = true)
    (hk : k ≠ .attribute mark) (ht : lastWrite? (shown s dictionary (e.bindings mark)) k = some t) :
    (e.revised mark (shownRevision mark s dictionary)).write k t = e.revised mark (shownRevision mark s dictionary) := by
  refine write_eq_self_of_lastWrite? (e := e) (Binding.writtenAll (e.bindings mark)) ?_ (fun u hu => ?_) hk ht
  · simp only [Element.revised, hm, if_true]
    rfl
  · have htext : (shownRevision mark s dictionary e).text = some u := hu
    simp only [Element.revised, hm, if_true, Revision.inside, htext]

/-- An attribute that an element does not show is what it was after the element was revised. -/
theorem bound_revised_shownRevision {dictionary : Dictionary} {name : Text} (hm : e.attrs.has mark = true) (hname : name ≠ mark)
    (hunwritten : lastWrite? (shown s dictionary (e.bindings mark)) (.attribute name) = none) :
    (e.revised mark (shownRevision mark s dictionary)).bound (.attribute name) = e.bound (.attribute name) := by
  have hne : Keyword.attribute name ≠ .attribute mark := fun h => hname (Keyword.attribute.inj h)
  have happly : ((shownRevision mark s dictionary e).apply e).bound (.attribute name) = e.bound (.attribute name) := by
    rw [apply_shownRevision, Element.bound_write_of_ne _ _ hne, Element.bound_writeAll, hunwritten, Option.getD_none]
  simp only [Element.revised, hm, if_true]
  exact happly

/-- What is inside an element that shows no text is revised. -/
theorem children_revised_shownRevision {dictionary : Dictionary} (hm : e.attrs.has mark = true)
    (hunwritten : lastWrite? (shown s dictionary (e.bindings mark)) .text = none) :
    (e.revised mark (shownRevision mark s dictionary)).children =
      Node.revisedAll mark (shownRevision mark s dictionary) e.children := by
  have htext : (shownRevision mark s dictionary e).text = none := by
    rw [shownRevision, Revision.setMarker, Revision.text_writeAll, hunwritten]
    rfl
  simp only [Element.revised, hm, if_true, Revision.inside, htext]

/-- Revising an element by what it shows leaves its bindings in its marker. -/
theorem marker_revised_shownRevision {dictionary : Dictionary} (hm : e.attrs.has mark = true) :
    (e.revised mark (shownRevision mark s dictionary)).marker mark = Binding.writtenAll (e.bindings mark) := by
  simp only [Element.revised, hm, if_true, Element.marker, shownRevision, Revision.setMarker, Attrs.get?_set_self,
    Option.getD_some]

/-- Localizing leaves an element whose marker it could have written as it is exactly when the element is settled. -/
theorem localizeElement_eq_self_iff (h : e.HasWrittenMarker mark) :
    (localizeElement mark s e p).1.apply e = e ↔ Settled mark s p.dictionary e := by
  obtain ⟨bindings, hread, hmarker, hkept⟩ := h
  have hnodup : (Text.words (e.marker mark)).Nodup ↔ bindings.Nodup := hmarker ▸ Binding.nodup_words_writtenAll_iff hread
  have hback : bindings.Nodup → e.bindings mark = bindings := fun hn => Element.bindings_of_marker hread hn hmarker
  constructor
  · intro h
    obtain ⟨out, r, hout, hlength, hrevision, hquiet⟩ := exists_marker_localizeElement mark s e p
    -- the marker that is written is the one that is there
    have hsame : out = bindings := by
      rw [hrevision, Revision.apply_setMarker] at h
      have hbound := congrArg (Element.bound · (.attribute mark)) h
      simp only [Element.bound_write_self] at hbound
      exact Binding.writtenAll_inj hout hread (hbound.trans hmarker)
    have hn : bindings.Nodup := by
      refine Tag.nodup_of_length_among hread ?_
      rw [← hmarker, ← hlength, hsame]
    have hq := hquiet (hsame.trans (hback hn).symm)
    obtain ⟨log', heq, -⟩ := localizeElement_of_quiet hq
    rw [heq, apply_shownRevision, Element.write_writeAll_eq_self_iff] at h
    exact ⟨hnodup.2 hn, hq, h.2⟩
  · rintro ⟨hdistinct, hquiet, hshown⟩
    have hbindings := hback (hnodup.1 hdistinct)
    obtain ⟨log', heq, -⟩ := localizeElement_of_quiet hquiet
    rw [heq, apply_shownRevision, Element.write_writeAll_eq_self_iff, hbindings]
    rw [hbindings] at hshown
    exact ⟨hkept, hshown⟩

/-- A calm element gets what its bindings show, and only the texts that are looked up are noted. -/
theorem localizeElement_of_calm (h : Calm mark s p.dictionary e) :
    localizeElement mark s e p = (shownRevision mark s p.dictionary e,
      { p with asked := p.asked ++ askedFor s.domain p.dictionary (e.bindings mark) }) := by
  obtain ⟨log', heq, hlog⟩ := localizeElement_of_quiet h.quiet
  rw [heq, hlog h.resolves (h.silent p.log)]

end

/-! ## A page -/

/-- The setting in which the tags of a page are localized. -/
def settingFor (lookup : CatalogLookup) (domain : Text) (locale : Locale) (d : Document) : Setting :=
  ⟨lookup, locale, d.displayName, domain⟩

section

variable {mark domain : Text} {lookup : CatalogLookup} {locale : Locale} {d : Document} {dictionary : Dictionary}

/-- Localizing a page is a sweep over it. -/
theorem localize_eq (mark : Text) (lookup : CatalogLookup) (domain : Text) (locale : Locale) (d : Document)
    (dictionary : Dictionary) (log : Log) :
    localize ⟨mark, false⟩ lookup domain locale d dictionary log =
      ({ d with nodes :=
          (Node.sweepAll mark (localizeElement mark (settingFor lookup domain locale d)) d.nodes ⟨dictionary, log, []⟩).1 },
        (Node.sweepAll mark (localizeElement mark (settingFor lookup domain locale d)) d.nodes ⟨dictionary, log, []⟩).2) := rfl

/-- Localizing elements that are calm notes the texts they ask for, one element after the other. -/
theorem foldl_localizeElement_of_calm {s : Setting} (elements : List Element) (p : Progress)
    (h : ∀ e ∈ elements, Calm mark s p.dictionary e) :
    elements.foldl (fun p e => (localizeElement mark s e p).2) p =
      { p with asked := p.asked ++ elements.flatMap fun e => askedFor s.domain p.dictionary (e.bindings mark) } := by
  induction elements generalizing p with
  | nil => simp
  | cons e rest ih =>
    have hrest := ih { p with asked := p.asked ++ askedFor s.domain p.dictionary (e.bindings mark) } fun f hf =>
      h f (List.mem_cons_of_mem _ hf)
    rw [List.append_assoc] at hrest
    rw [List.foldl_cons, localizeElement_of_calm (h e List.mem_cons_self), List.flatMap_cons]
    exact hrest

/-- On a page whose elements are calm, localizing writes what they show and notes what they ask for. The dictionary and the log
stay. -/
theorem localize_of_calm (log : Log)
    (h : ∀ e ∈ d.annotated mark, Calm mark (settingFor lookup domain locale d) dictionary e) :
    localize ⟨mark, false⟩ lookup domain locale d dictionary log =
      (d.revised mark (shownRevision mark (settingFor lookup domain locale d) dictionary),
        ⟨dictionary, log, (d.annotated mark).flatMap fun e => askedFor domain dictionary (e.bindings mark)⟩) := by
  have hstep : ∀ e ∈ Node.annotatedAll mark d.nodes, ∀ p : Progress, p.dictionary = dictionary →
      (localizeElement mark (settingFor lookup domain locale d) e p).1 =
          shownRevision mark (settingFor lookup domain locale d) dictionary e ∧
        (localizeElement mark (settingFor lookup domain locale d) e p).2.dictionary = dictionary := by
    rintro e he p rfl
    rw [localizeElement_of_calm (h e he)]
    exact ⟨rfl, rfl⟩
  have hnodes := (Node.sweepAll_eq_revisedAll hstep (s := ⟨dictionary, log, []⟩) rfl).1
  rw [localize_eq, hnodes, Node.sweepAll_snd]
  exact congrArg _ (foldl_localizeElement_of_calm (d.annotated mark) ⟨dictionary, log, []⟩ h)

/-- Every annotated element of a page that was localized has a marker that localizing could have written. -/
theorem hasWrittenMarker_of_mem_localize {log : Log} {f : Element}
    (h : f ∈ (localize ⟨mark, false⟩ lookup domain locale d dictionary log).1.annotated mark) : f.HasWrittenMarker mark := by
  obtain ⟨e, -, p, -, -, hattrs, -⟩ := Node.exists_revise_of_mem_sweepAll (R := fun _ _ => True) (fun _ => trivial)
    (fun _ _ => trivial) (fun _ _ => trivial) h
  obtain ⟨bindings, r, hread, -, hr, -⟩ := exists_marker_localizeElement mark (settingFor lookup domain locale d) e p
  obtain ⟨name, attrs, children⟩ := f
  obtain rfl : attrs = r.attrs.set mark (Binding.writtenAll bindings) := by
    refine hattrs.trans ?_
    exact congrArg Revision.attrs hr
  refine ⟨bindings, hread, ?_, ?_⟩
  · simp only [Element.marker, Attrs.get?_set_self, Option.getD_some]
  · simp only [Element.write, Attrs.set_set]

/-- Localizing leaves a page with written markers as it is exactly when every annotated element is settled. -/
theorem localize_eq_self_iff (log : Log) (h : ∀ e ∈ d.annotated mark, e.HasWrittenMarker mark) :
    (localize ⟨mark, false⟩ lookup domain locale d dictionary log).1 = d ↔
      ∀ e ∈ d.annotated mark, Settled mark (settingFor lookup domain locale d) dictionary e := by
  let s := settingFor lookup domain locale d
  let g : Element → Revision := fun e => (localizeElement mark s e ⟨dictionary, log, []⟩).1
  have hg : ∀ e ∈ Node.annotatedAll mark d.nodes, ∀ p : Progress, p.dictionary = dictionary →
      (localizeElement mark s e p).1 = g e :=
    fun e _ p hp => localizeElement_congr hp
  have hself : ∀ e ∈ d.annotated mark, (g e).apply e = e ↔ Settled mark s dictionary e :=
    fun e he => localizeElement_eq_self_iff (h e he)
  have hkept : ∀ e ∈ Node.annotatedAll mark d.nodes, ∀ p : Progress, p.dictionary = dictionary → (g e).apply e = e →
      (localizeElement mark s e p).2.dictionary = dictionary := by
    rintro e he p rfl hge
    obtain ⟨log', heq, -⟩ := localizeElement_of_quiet (p := p) ((hself e he).1 hge).quiet
    rw [heq]
  have hsweep := (Node.sweepAll_eq_self_iff hg hkept (s := ⟨dictionary, log, []⟩) rfl).1
  obtain ⟨nodes, path⟩ := d
  rw [localize_eq, Document.mk.injEq]
  simp only [and_true]
  exact hsweep.trans (forall₂_congr hself)

end

/-! ## Other catalogs -/

/-- Localizing for a locale asks catalogs for that locale only. -/
theorem localize_lookup_congr {scanner : Scanner} {lookup lookup' : CatalogLookup} {domain : Text} {locale : Locale} {d : Document}
    {dictionary : Dictionary} {log : Log} (h : ∀ domain canonical, lookup domain canonical locale = lookup' domain canonical locale) :
    localize scanner lookup domain locale d dictionary log = localize scanner lookup' domain locale d dictionary log := by
  -- what is asked of catalogs, without the locale that is always the same
  have hpartial : ∀ lookup : CatalogLookup, localize scanner lookup domain locale d dictionary log =
      localize scanner (fun domain canonical _ => lookup domain canonical locale) domain locale d dictionary log := by
    intro lookup
    have htags : ∀ (file : Text) (e : Element) (tags : List Tag) (r : Revision) (p : Progress),
        localizeTags ⟨lookup, locale, file, domain⟩ e tags r p =
          localizeTags ⟨fun domain canonical _ => lookup domain canonical locale, locale, file, domain⟩ e tags r p := by
      intro file e tags
      induction tags with
      | nil => exact fun _ _ => rfl
      | cons t rest ih =>
        intro r p
        simp only [localizeTags, ih]
        rfl
    have helement : localizeElement scanner.mark ⟨lookup, locale, (scanner.prepare d).displayName, domain⟩ =
        localizeElement scanner.mark ⟨fun domain canonical _ => lookup domain canonical locale, locale,
          (scanner.prepare d).displayName, domain⟩ := by
      funext e p
      simp only [localizeElement, htags]
    simp only [localize, helement]
  rw [hpartial lookup, hpartial lookup']
  simp only [h]

end Localization

end LocalePages
