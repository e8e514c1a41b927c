import LocalePages.Proofs.Localizing

/-!
# Passes that log nothing

Localizing loses no text of the dictionary and only adds to the log (`Localization.leadsTo_localizeElement`). When nothing is
added to the log, every hash was known at its turn, and every text that was registered owns its key. What was written is thus
what the bindings in the new marker show, with the dictionary at the end as with any that has grown since
(`Localization.localizeElement_of_silent`).
-/

namespace LocalePages

namespace Localization

/-- How localizing goes on: no text of the dictionary is lost, and the log only grows. -/
structure Progress.LeadsTo (p p' : Progress) : Prop where
  dictionary : ∀ k t, p.dictionary.get? k = some t → p'.dictionary.get? k = some t
  log : p.log.Extends p'.log

theorem Progress.LeadsTo.refl (p : Progress) : p.LeadsTo p := ⟨fun _ _ h => h, Log.Extends.refl p.log⟩

theorem Progress.LeadsTo.trans {p p' p'' : Progress} (h : p.LeadsTo p') (h' : p'.LeadsTo p'') : p.LeadsTo p'' :=
  ⟨fun k t hk => h'.dictionary k t (h.dictionary k t hk), h.log.trans h'.log⟩

section

variable {mark : Text} {s : Setting} {e : Element} {p : Progress}

/-! ## Progress -/

/-- Localizing a tag loses no text and only adds to the log. -/
theorem leadsTo_localizeTag (s : Setting) (e : Element) (t : Tag) (r : Revision) (p : Progress) :
    p.LeadsTo (localizeTag s e t r p).2.2 := by
  unfold localizeTag
  dsimp only
  split
  · split
    · exact ⟨fun _ _ h => h, Log.Extends.refl p.log⟩
    · exact ⟨fun _ _ h => h, Log.extends_add _ _ _⟩
  · split
    · exact Progress.LeadsTo.refl p
    · refine ⟨fun k u hk => Dictionary.get?_register_of_some _ _ hk, ?_⟩
      dsimp only [writeTag]
      split
      · exact Log.extends_add _ _ _
      · exact Log.Extends.refl p.log

/-- Localizing tags loses no text and only adds to the log. -/
theorem leadsTo_localizeTags (s : Setting) (e : Element) (tags : List Tag) (r : Revision) (p : Progress) :
    p.LeadsTo (localizeTags s e tags r p).2.2 := by
  induction tags generalizing r p with
  | nil => exact Progress.LeadsTo.refl p
  | cons t rest ih => exact (leadsTo_localizeTag s e t r p).trans (ih _ _)

/-- Localizing an element loses no text and only adds to the log. -/
theorem leadsTo_localizeElement (mark : Text) (s : Setting) (e : Element) (p : Progress) :
    p.LeadsTo (localizeElement mark s e p).2 := by
  have hread : p.LeadsTo ⟨p.dictionary, (Tag.ofMarker (e.marker mark) p.log).2, p.asked⟩ :=
    ⟨fun _ _ h => h, Tag.extends_ofMarker _ _⟩
  rw [localizeElement_eq]
  exact hread.trans (leadsTo_localizeTags _ _ _ _ _)

/-! ## Silent tags -/

/-- A tag that nothing is logged for shows what was written for it, and has no hash only when it was about nothing. -/
theorem localizeTag_of_silent {t : Tag} {r : Revision} {dictionary : Dictionary} (hsilent : (localizeTag s e t r p).2.2.log = p.log)
    (hlater : ∀ k u, (localizeTag s e t r p).2.2.dictionary.get? k = some u → dictionary.get? k = some u) :
    (localizeTag s e t r p).2.1 = r.writeAll (shown s dictionary [(localizeTag s e t r p).1]) ∧
      ((localizeTag s e t r p).1.hash = none → (r.apply e).canonical (localizeTag s e t r p).1.keyword = []) := by
  by_cases hquiet : t.binding.hash = none → (r.apply e).canonical t.binding.keyword = []
  · obtain ⟨log', heq, -⟩ := localizeTag_of_quiet (s := s) (p := p) hquiet
    rw [heq] at hlater ⊢
    refine ⟨congrArg r.writeAll ?_, hquiet⟩
    cases hhash : t.binding.hash with
    | none => rw [shown_of_hash_eq_none hhash, shown_of_hash_eq_none hhash]
    | some hash =>
      cases hkey : p.dictionary.get? ⟨t.binding.domainOr s.domain, hash⟩ with
      | none =>
        simp only [localizeTag, hhash, hkey] at hsilent
        exact absurd hsilent (Log.add_ne _ _ _)
      | some canonical => simp [shown, resolved?, hhash, hkey, hlater _ _ hkey]
  · obtain ⟨hhash, hne⟩ := Classical.not_imp.1 hquiet
    have hempty : ((r.apply e).canonical t.binding.keyword).isEmpty = false := List.isEmpty_eq_false_iff.2 hne
    simp only [localizeTag, hhash, hempty, Bool.false_eq_true, if_false, writeTag] at hsilent hlater ⊢
    generalize (r.apply e).canonical t.binding.keyword = canonical at hsilent hlater ⊢
    -- the text owns its key: where another one does, the log tells of a collision
    have howned : dictionary.get? (Template.keyOf (t.binding.domainOr s.domain) canonical) = some canonical := by
      refine hlater _ _ (Dictionary.get?_register_self fun existing hcollision => ?_)
      simp only [hcollision] at hsilent
      exact Log.add_ne _ _ _ hsilent
    refine ⟨?_, fun hblank => absurd hblank (Option.some_ne_none _)⟩
    have hresolved : resolved? s.domain dictionary
        { t.binding with hash := some (Template.keyOf (t.binding.domainOr s.domain) canonical).hash } = some canonical := howned
    simp only [shown, List.filterMap_cons, hresolved, Option.map_some, List.filterMap_nil]
    rfl

/-- Tags that nothing is logged for show what was written for them, and those that have no hash are quiet. -/
theorem localizeTags_of_silent {tags : List Tag} {r : Revision} {dictionary : Dictionary}
    (hsilent : (localizeTags s e tags r p).2.2.log = p.log)
    (hlater : ∀ k u, (localizeTags s e tags r p).2.2.dictionary.get? k = some u → dictionary.get? k = some u) :
    (localizeTags s e tags r p).2.1 = r.writeAll (shown s dictionary (localizeTags s e tags r p).1) ∧
      Quiet s dictionary (r.apply e) (localizeTags s e tags r p).1 := by
  induction tags generalizing r p with
  | nil =>
    refine ⟨rfl, fun before a after h => ?_⟩
    simp [localizeTags] at h
  | cons t rest ih =>
    rw [localizeTags] at hsilent hlater ⊢
    dsimp only at hsilent hlater ⊢
    have hfirst := leadsTo_localizeTag s e t r p
    have hrest := leadsTo_localizeTags s e rest (localizeTag s e t r p).2.1 (localizeTag s e t r p).2.2
    have hlog : (localizeTag s e t r p).2.2.log = p.log := hfirst.log.antisymm (hsilent ▸ hrest.log)
    obtain ⟨hwritten, hblank⟩ := localizeTag_of_silent hlog fun k u hk => hlater k u (hrest.dictionary k u hk)
    obtain ⟨hmore, hquiet⟩ := ih (hsilent.trans hlog.symm) hlater
    rw [shown_cons, Revision.writeAll_append, ← hwritten, quiet_cons_iff, ← Revision.apply_writeAll, ← hwritten]
    exact ⟨hmore, hblank, hquiet⟩

/-- An element that nothing is logged for gets what the bindings in its new marker show, and these are quiet on it. -/
theorem localizeElement_of_silent {dictionary : Dictionary} (hsilent : (localizeElement mark s e p).2.log = p.log)
    (hlater : ∀ k u, (localizeElement mark s e p).2.dictionary.get? k = some u → dictionary.get? k = some u) :
    ∃ bindings, (∀ a ∈ bindings, a.Readable) ∧ Quiet s dictionary e bindings ∧
      (localizeElement mark s e p).1 =
        ((Revision.keep e).writeAll (shown s dictionary bindings)).setMarker mark (Binding.writtenAll bindings) := by
  rw [localizeElement_eq] at hsilent hlater ⊢
  dsimp only at hsilent hlater ⊢
  have hread := Tag.extends_ofMarker (e.marker mark) p.log
  have htags := (leadsTo_localizeTags s e (Tag.among (e.marker mark)) (Revision.keep e)
    ⟨p.dictionary, (Tag.ofMarker (e.marker mark) p.log).2, p.asked⟩).log
  rw [hsilent] at htags
  have hlog := hread.antisymm htags
  obtain ⟨hwritten, hquiet⟩ := localizeTags_of_silent (hsilent.trans hlog.symm) hlater
  refine ⟨_, readable_of_mem_localizeTags fun t ht => (Tag.readable_of_mem_among ht).1, hquiet, ?_⟩
  rw [hwritten]

/-! ## Silent pages -/

/-- An element that got what quiet bindings show is settled when its marker says nothing twice and its tags without a hash are
about nothing. -/
theorem settled_of_shown {dictionary : Dictionary} {bindings : List Binding} {f : Element} (hread : ∀ a ∈ bindings, a.Readable)
    (hquiet : Quiet s dictionary e bindings)
    (hattrs : f.attrs =
      (((Revision.keep e).writeAll (shown s dictionary bindings)).setMarker mark (Binding.writtenAll bindings)).attrs)
    (htext : ∀ t, (((Revision.keep e).writeAll (shown s dictionary bindings)).setMarker mark
      (Binding.writtenAll bindings)).text = some t → f.children = [.text t])
    (hdistinct : (Text.words (f.marker mark)).Nodup)
    (hblank : ∀ a ∈ f.bindings mark, a.hash = none → f.canonical a.keyword = []) : Settled mark s dictionary f := by
  have hmarker : f.marker mark = Binding.writtenAll bindings := by
    rw [Element.marker, hattrs, Revision.setMarker, Attrs.get?_set_self, Option.getD_some]
  have hn : bindings.Nodup := (Binding.nodup_words_writtenAll_iff hread).1 (hmarker ▸ hdistinct)
  have hbindings := Element.bindings_of_marker hread hn hmarker
  rw [hbindings] at hblank
  refine ⟨hdistinct, ?_, fun k t hk ht => ?_⟩
  · rw [hbindings]
    intro before a after has hhash
    have ha := hquiet before a after has hhash
    rw [Element.canonical, Element.bound_writeAll] at ha ⊢
    -- a keyword that an earlier tag writes is about the same in both elements
    cases hlast : lastWrite? (shown s dictionary before) a.keyword with
    | some v => rwa [hlast] at ha
    | none => exact hblank a (by simp [has]) hhash
  · rw [hbindings] at ht
    exact write_eq_self_of_lastWrite? _ hattrs htext hk ht

/-- An annotated element of a localized page got its attributes, and its text if it got one, when an element was localized on the
way from the start to the end. -/
theorem exists_localizeElement_of_mem_localize {domain : Text} {lookup : CatalogLookup} {locale : Locale} {d : Document}
    {dictionary : Dictionary} {log : Log} {f : Element}
    (hf : f ∈ (localize ⟨mark, false⟩ lookup domain locale d dictionary log).1.annotated mark) :
    ∃ e p, Progress.LeadsTo ⟨dictionary, log, []⟩ p ∧
      (localizeElement mark (settingFor lookup domain locale d) e p).2.LeadsTo
        (localize ⟨mark, false⟩ lookup domain locale d dictionary log).2 ∧
      f.attrs = (localizeElement mark (settingFor lookup domain locale d) e p).1.attrs ∧
      ∀ t, (localizeElement mark (settingFor lookup domain locale d) e p).1.text = some t → f.children = [.text t] := by
  obtain ⟨e, -, p, hall⟩ := Node.exists_revise_of_mem_sweepAll Progress.LeadsTo.refl Progress.LeadsTo.trans
    (leadsTo_localizeElement mark (settingFor lookup domain locale d)) hf
  exact ⟨e, p, hall⟩

/-- An annotated element of a page that was localized without a word in the log is settled when its marker says nothing twice and
its tags without a hash are about nothing. -/
theorem settled_of_silent {domain : Text} {lookup : CatalogLookup} {locale : Locale} {d : Document} {dictionary : Dictionary}
    {log : Log} (hsilent : (localize ⟨mark, false⟩ lookup domain locale d dictionary log).2.log = log) {f : Element}
    (hf : f ∈ (localize ⟨mark, false⟩ lookup domain locale d dictionary log).1.annotated mark)
    (hdistinct : (Text.words (f.marker mark)).Nodup)
    (hblank : ∀ a ∈ f.bindings mark, a.hash = none → f.canonical a.keyword = []) :
    Settled mark (settingFor lookup domain locale d) (localize ⟨mark, false⟩ lookup domain locale d dictionary log).2.dictionary
      f := by
  obtain ⟨e, p, hbefore, hafter, hattrs, htext⟩ := exists_localizeElement_of_mem_localize hf
  have hend := hafter.log
  rw [hsilent] at hend
  have hlog := (leadsTo_localizeElement mark (settingFor lookup domain locale d) e p).log.antisymm (hend.trans hbefore.log)
  obtain ⟨bindings, hread, hquiet, hrevision⟩ := localizeElement_of_silent hlog hafter.dictionary
  rw [hrevision] at hattrs htext
  exact settled_of_shown hread hquiet hattrs htext hdistinct hblank

end

end Localization

end LocalePages
