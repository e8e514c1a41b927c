import LocalePages.Proofs.SilentPasses

/-!
# Localizing with an earlier dictionary

A pass that logs no error leaves only hashes that its own dictionary knows at the end (`Localization.resolves_of_mem_localize`).
The page can then be localized with an earlier dictionary that knows less. Where that one still knows the hashes of an element, it
makes no difference (`Localization.shown_of_within`, `Localization.settled_of_within`). Where it does not, an error is logged: a
pass over settled elements that logs no error has known all their hashes (`Localization.resolves_of_count_localize`).
-/

namespace LocalePages

/-- A dictionary knows everything that this one knows. -/
def Dictionary.Within (d d' : Dictionary) : Prop := ∀ k t, d.get? k = some t → d'.get? k = some t

namespace Localization

variable {mark : Text} {s : Setting} {e : Element} {p : Progress} {earlier later : Dictionary}

/-! ## Hashes that are known early -/

/-- A binding whose hash is known early shows the same later. -/
theorem resolved?_of_within {domain : Text} (hwithin : earlier.Within later) {a : Binding}
    (ha : a.hash.isSome → (resolved? domain earlier a).isSome) : resolved? domain later a = resolved? domain earlier a := by
  cases hhash : a.hash with
  | none => rw [resolved?, resolved?, hhash]; rfl
  | some hash =>
    rw [resolved?, hhash, Option.bind_some] at ha
    rw [resolved?, resolved?, hhash, Option.bind_some, Option.bind_some]
    obtain ⟨t, ht⟩ := Option.isSome_iff_exists.1 (ha rfl)
    rw [ht, hwithin _ t ht]

/-- Bindings whose hashes are known early show the same later. -/
theorem shown_of_within (hwithin : earlier.Within later) {as : List Binding} (hres : Resolves s.domain earlier as) :
    shown s later as = shown s earlier as := by
  refine List.filterMap_congr fun a ha => ?_
  rw [resolved?_of_within hwithin (hres a ha)]

/-- Bindings whose hashes are known early are quiet early when they are quiet later. -/
theorem quiet_of_within (hwithin : earlier.Within later) {as : List Binding} (hres : Resolves s.domain earlier as)
    (h : Quiet s later e as) : Quiet s earlier e as := by
  intro before a after has hhash
  have hbefore : Resolves s.domain earlier before := fun b hb => hres b (by rw [has]; exact List.mem_append_left _ hb)
  rw [← shown_of_within hwithin hbefore]
  exact h before a after has hhash

/-- Hashes that are known early are known later. -/
theorem resolves_of_within {domain : Text} (hwithin : earlier.Within later) {as : List Binding} (h : Resolves domain earlier as) :
    Resolves domain later as := by
  intro a ha hhash
  rw [resolved?_of_within hwithin (h a ha)]
  exact h a ha hhash

/-- An element whose hashes are known early is settled early when it is settled later. -/
theorem settled_of_within (hwithin : earlier.Within later) (hres : Resolves s.domain earlier (e.bindings mark))
    (h : Settled mark s later e) : Settled mark s earlier e := by
  refine ⟨h.distinct, quiet_of_within hwithin hres h.quiet, fun k t hk ht => ?_⟩
  rw [← shown_of_within hwithin hres] at ht
  exact h.shown k t hk ht

/-- A settled element with a written marker is calm when its hashes are known. -/
theorem calm_of_settled {dictionary : Dictionary} (hwritten : e.HasWrittenMarker mark) (hsettled : Settled mark s dictionary e)
    (hres : Resolves s.domain dictionary (e.bindings mark)) : Calm mark s dictionary e := by
  obtain ⟨bindings, hread, hmarker, -⟩ := hwritten
  have hdistinct := hsettled.distinct
  rw [hmarker] at hdistinct
  have hn := (Binding.nodup_words_writtenAll_iff hread).1 hdistinct
  refine ⟨hsettled.quiet, hres, fun log => ?_⟩
  rw [hmarker, Tag.ofMarker_writtenAll hread hn]

/-! ## Passes without errors -/

/-- Where localizing goes on, no error is lost. -/
theorem Progress.LeadsTo.count_le {p p' : Progress} (h : p.LeadsTo p') : p.log.count .error ≤ p'.log.count .error :=
  h.log.count_le .error

/-- A tag without an error has no hash or one that was known. -/
theorem resolves_of_count_localizeTag {t : Tag} {r : Revision}
    (hcount : (localizeTag s e t r p).2.2.log.count .error = p.log.count .error) :
    Resolves s.domain p.dictionary [t.binding] := by
  intro a ha hsome
  obtain rfl := List.mem_singleton.1 ha
  obtain ⟨hash, hhash⟩ := Option.isSome_iff_exists.1 hsome
  rw [resolved?, hhash, Option.bind_some]
  cases hkey : p.dictionary.get? ⟨t.binding.domainOr s.domain, hash⟩ with
  | some canonical => rfl
  | none =>
    simp only [localizeTag, hhash, hkey, Log.count_error_error] at hcount
    omega

/-- What becomes of a tag without an error has no hash or one that is known afterwards. -/
theorem resolves_localizeTag {t : Tag} {r : Revision} (hcount : (localizeTag s e t r p).2.2.log.count .error = p.log.count .error) :
    Resolves s.domain (localizeTag s e t r p).2.2.dictionary [(localizeTag s e t r p).1] := by
  by_cases hquiet : t.binding.hash = none → (r.apply e).canonical t.binding.keyword = []
  · have hknown := resolves_of_count_localizeTag hcount
    obtain ⟨log', heq, -⟩ := localizeTag_of_quiet (s := s) (p := p) hquiet
    rw [heq]
    exact hknown
  · obtain ⟨hhash, hne⟩ := Classical.not_imp.1 hquiet
    have hempty : ((r.apply e).canonical t.binding.keyword).isEmpty = false := List.isEmpty_eq_false_iff.2 hne
    simp only [localizeTag, hhash, hempty, Bool.false_eq_true, if_false, writeTag]
    generalize (r.apply e).canonical t.binding.keyword = canonical
    intro a ha _
    obtain rfl := List.mem_singleton.1 ha
    have hkey := Dictionary.get?_register p.dictionary (Template.keyOf (t.binding.domainOr s.domain) canonical)
      (Template.keyOf (t.binding.domainOr s.domain) canonical) canonical
    rw [if_pos rfl] at hkey
    exact Option.isSome_iff_exists.2 ⟨_, hkey⟩

/-- What becomes of tags without an error has no hashes but ones that are known afterwards. -/
theorem resolves_localizeTags {tags : List Tag} {r : Revision}
    (hcount : (localizeTags s e tags r p).2.2.log.count .error = p.log.count .error) :
    Resolves s.domain (localizeTags s e tags r p).2.2.dictionary (localizeTags s e tags r p).1 := by
  induction tags generalizing r p with
  | nil =>
    intro a ha
    cases ha
  | cons t rest ih =>
    have htag := (leadsTo_localizeTag s e t r p).count_le
    have hafter := leadsTo_localizeTags s e rest (localizeTag s e t r p).2.1 (localizeTag s e t r p).2.2
    have hle := hafter.count_le
    have hall : (localizeTags s e rest (localizeTag s e t r p).2.1 (localizeTag s e t r p).2.2).2.2.log.count .error =
        p.log.count .error := hcount
    have hfirst := resolves_of_within hafter.dictionary (resolves_localizeTag (s := s) (t := t) (r := r) (by omega))
    have hrest := @ih (localizeTag s e t r p).2.2 (localizeTag s e t r p).2.1 (by omega)
    intro a ha
    rcases List.mem_cons.1 ha with rfl | ha
    · exact hfirst _ List.mem_cons_self
    · exact hrest a ha

/-- Localizing an element without an error leaves a marker of readable bindings with hashes that are known afterwards. -/
theorem resolves_localizeElement (hcount : (localizeElement mark s e p).2.log.count .error = p.log.count .error) :
    ∃ bindings r, (∀ a ∈ bindings, a.Readable) ∧
      (localizeElement mark s e p).1 = Revision.setMarker r mark (Binding.writtenAll bindings) ∧
      Resolves s.domain (localizeElement mark s e p).2.dictionary bindings := by
  let read : Progress := ⟨p.dictionary, (Tag.ofMarker (e.marker mark) p.log).2, p.asked⟩
  have hmarker : p.log.count .error ≤ read.log.count .error := (Tag.extends_ofMarker (e.marker mark) p.log).count_le .error
  have htags := (leadsTo_localizeTags s e (Tag.among (e.marker mark)) (Revision.keep e) read).count_le
  rw [localizeElement_eq] at hcount ⊢
  have hall : (localizeTags s e (Tag.among (e.marker mark)) (Revision.keep e) read).2.2.log.count .error = p.log.count .error :=
    hcount
  refine ⟨_, _, readable_of_mem_localizeTags fun t ht => (Tag.readable_of_mem_among ht).1, rfl, ?_⟩
  exact resolves_localizeTags (p := read) (by omega)

/-- Tags without an error, quiet with what is known later, have no hashes but known ones. -/
theorem resolves_of_count_localizeTags {tags : List Tag} {r : Revision} (hwithin : p.dictionary.Within later)
    (hquiet : Quiet s later (r.apply e) (tags.map Tag.binding))
    (hcount : (localizeTags s e tags r p).2.2.log.count .error = p.log.count .error) :
    Resolves s.domain p.dictionary (tags.map Tag.binding) := by
  induction tags generalizing r p with
  | nil =>
    intro a ha
    cases ha
  | cons t rest ih =>
    rw [List.map_cons, quiet_cons_iff] at hquiet
    obtain ⟨hfirst, hrest⟩ := hquiet
    -- neither the tag nor those after it have an error
    have htag := (leadsTo_localizeTag s e t r p).count_le
    have hafter := (leadsTo_localizeTags s e rest (localizeTag s e t r p).2.1 (localizeTag s e t r p).2.2).count_le
    have hall : (localizeTags s e rest (localizeTag s e t r p).2.1 (localizeTag s e t r p).2.2).2.2.log.count .error =
        p.log.count .error := hcount
    have hone : (localizeTag s e t r p).2.2.log.count .error = p.log.count .error := by omega
    have hknown := resolves_of_count_localizeTag hone
    obtain ⟨log', heq, -⟩ := localizeTag_of_quiet (s := s) (p := p) hfirst
    rw [heq] at hall hone
    rw [shown_of_within hwithin hknown, ← Revision.apply_writeAll] at hrest
    have hmore := @ih ⟨p.dictionary, log', p.asked ++ askedFor s.domain p.dictionary [t.binding]⟩
      (r.writeAll (shown s p.dictionary [t.binding])) hwithin hrest (hall.trans hone.symm)
    intro a ha
    rcases List.mem_cons.1 ha with rfl | ha
    · exact hknown t.binding List.mem_cons_self
    · exact hmore a ha

/-- An element without an error, quiet with what is known later, has no hashes but known ones. -/
theorem resolves_of_count_localizeElement (hwithin : p.dictionary.Within later) (hquiet : Quiet s later e (e.bindings mark))
    (hcount : (localizeElement mark s e p).2.log.count .error = p.log.count .error) :
    Resolves s.domain p.dictionary (e.bindings mark) := by
  let read : Progress := ⟨p.dictionary, (Tag.ofMarker (e.marker mark) p.log).2, p.asked⟩
  have hmarker : p.log.count .error ≤ read.log.count .error := (Tag.extends_ofMarker (e.marker mark) p.log).count_le .error
  have htags := (leadsTo_localizeTags s e (Tag.among (e.marker mark)) (Revision.keep e) read).count_le
  rw [localizeElement_eq] at hcount
  have hall : (localizeTags s e (Tag.among (e.marker mark)) (Revision.keep e) read).2.2.log.count .error = p.log.count .error :=
    hcount
  have hstart : Quiet s later ((Revision.keep e).apply e) ((Tag.among (e.marker mark)).map Tag.binding) := hquiet
  exact resolves_of_count_localizeTags (p := read) hwithin hstart (by omega)

/-- Localizing elements loses no text and only adds to the log. -/
theorem leadsTo_foldl_localizeElement (mark : Text) (s : Setting) (elements : List Element) (p : Progress) :
    p.LeadsTo (elements.foldl (fun p e => (localizeElement mark s e p).2) p) := by
  induction elements generalizing p with
  | nil => exact Progress.LeadsTo.refl p
  | cons e rest ih => exact (leadsTo_localizeElement mark s e p).trans (ih _)

/-- Elements without an error, quiet with what is known later, have no hashes but known ones: each of them keeps the dictionary for
the ones that follow. -/
theorem resolves_of_count_foldl (elements : List Element) (hwithin : p.dictionary.Within later)
    (hquiet : ∀ e ∈ elements, Quiet s later e (e.bindings mark))
    (hcount : (elements.foldl (fun p e => (localizeElement mark s e p).2) p).log.count .error = p.log.count .error) :
    ∀ e ∈ elements, Resolves s.domain p.dictionary (e.bindings mark) := by
  induction elements generalizing p with
  | nil =>
    intro e he
    cases he
  | cons e rest ih =>
    have hfirst := (leadsTo_localizeElement mark s e p).count_le
    have hafter := (leadsTo_foldl_localizeElement mark s rest (localizeElement mark s e p).2).count_le
    rw [List.foldl_cons] at hcount
    have hone : (localizeElement mark s e p).2.log.count .error = p.log.count .error := by omega
    have hknown := resolves_of_count_localizeElement hwithin (hquiet e List.mem_cons_self) hone
    have hq := quiet_of_within hwithin hknown (hquiet e List.mem_cons_self)
    obtain ⟨log', heq, -⟩ := localizeElement_of_quiet hq
    have hkept : (localizeElement mark s e p).2.dictionary = p.dictionary := by rw [heq]
    have hmore := @ih (localizeElement mark s e p).2 (hkept ▸ hwithin) (fun f hf => hquiet f (List.mem_cons_of_mem _ hf))
      (hcount.trans hone.symm)
    intro f hf
    rcases List.mem_cons.1 hf with rfl | hf
    · exact hknown
    · rw [← hkept]
      exact hmore f hf

section

variable {domain : Text} {lookup : CatalogLookup} {locale : Locale} {d : Document}

/-- Localizing a page loses no text and only adds to the log. -/
theorem leadsTo_localize (scanner : Scanner) (lookup : CatalogLookup) (domain : Text) (locale : Locale) (d : Document)
    (dictionary : Dictionary) (log : Log) :
    Progress.LeadsTo ⟨dictionary, log, []⟩ (localize scanner lookup domain locale d dictionary log).2 :=
  Node.rel_sweepAll Progress.LeadsTo.refl Progress.LeadsTo.trans (leadsTo_localizeElement scanner.mark _) _ _

/-- Where localizing a page logs no error, every hash is known at the end that is left in a marker which says nothing twice. -/
theorem resolves_of_mem_localize {dictionary : Dictionary} {log : Log} {f : Element}
    (hcount : (localize ⟨mark, false⟩ lookup domain locale d dictionary log).2.log.count .error = log.count .error)
    (hf : f ∈ (localize ⟨mark, false⟩ lookup domain locale d dictionary log).1.annotated mark)
    (hdistinct : (Text.words (f.marker mark)).Nodup) :
    Resolves domain (localize ⟨mark, false⟩ lookup domain locale d dictionary log).2.dictionary (f.bindings mark) := by
  obtain ⟨e, p, hbefore, hafter, hattrs, -⟩ := exists_localizeElement_of_mem_localize hf
  have hstart : log.count .error ≤ p.log.count .error := hbefore.count_le
  have hstep := (leadsTo_localizeElement mark (settingFor lookup domain locale d) e p).count_le
  have hend := hafter.count_le
  have hone : (localizeElement mark (settingFor lookup domain locale d) e p).2.log.count .error = p.log.count .error := by
    omega
  obtain ⟨bindings, r, hread, hrevision, hres⟩ := resolves_localizeElement hone
  have hmarker : f.marker mark = Binding.writtenAll bindings := by
    rw [Element.marker, hattrs, hrevision, Revision.setMarker, Attrs.get?_set_self, Option.getD_some]
  have hn : bindings.Nodup := (Binding.nodup_words_writtenAll_iff hread).1 (hmarker ▸ hdistinct)
  rw [Element.bindings_of_marker hread hn hmarker]
  exact resolves_of_within hafter.dictionary hres

/-- A page without an error, quiet with what is known later, has no hashes but known ones. -/
theorem resolves_of_count_localize {log : Log} (hwithin : earlier.Within later)
    (hquiet : ∀ e ∈ d.annotated mark, Quiet (settingFor lookup domain locale d) later e (e.bindings mark))
    (hcount : (localize ⟨mark, false⟩ lookup domain locale d earlier log).2.log.count .error = log.count .error) :
    ∀ e ∈ d.annotated mark, Resolves domain earlier (e.bindings mark) := by
  rw [localize_eq, Node.sweepAll_snd] at hcount
  exact resolves_of_count_foldl (p := ⟨earlier, log, []⟩) (d.annotated mark) hwithin hquiet hcount

/-- Localizing a page with an earlier dictionary that knows its hashes, where its elements are settled with a later one, changes
neither the page nor the log. -/
theorem localize_of_within (log : Log) (hwithin : earlier.Within later)
    (hwritten : ∀ e ∈ d.annotated mark, e.HasWrittenMarker mark)
    (hsettled : ∀ e ∈ d.annotated mark, Settled mark (settingFor lookup domain locale d) later e)
    (hres : ∀ e ∈ d.annotated mark, Resolves domain earlier (e.bindings mark)) :
    (localize ⟨mark, false⟩ lookup domain locale d earlier log).1 = d ∧
      (localize ⟨mark, false⟩ lookup domain locale d earlier log).2.log = log := by
  have hearlier : ∀ e ∈ d.annotated mark, Settled mark (settingFor lookup domain locale d) earlier e := fun e he =>
    settled_of_within hwithin (hres e he) (hsettled e he)
  have hcalm := localize_of_calm log fun e he => calm_of_settled (hwritten e he) (hearlier e he) (hres e he)
  exact ⟨(localize_eq_self_iff log hwritten).2 hearlier, congrArg (fun out => out.2.log) hcalm⟩

end

end Localization

end LocalePages
