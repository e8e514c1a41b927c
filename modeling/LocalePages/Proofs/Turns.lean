import LocalePages.Proofs.Localizing

/-!
# Tags at their turn

What localizing makes of a tag hangs on what is there when its turn comes: the element as the tags before it left it, and the
dictionary with all that was registered on the way. A `Localization.Turn` is a tag with what is there then, and
`Localization.turns` are the turns of tags that follow each other. From its turns it is known what becomes of the bindings of an
element, what is written to it, what is registered, and which errors are logged (`Localization.Outcome`,
`Localization.outcome_localizeTags`).
-/

namespace LocalePages

namespace Localization

open Template

/-- A tag at its turn: the element as the tags before it left it, and how far localizing has come. -/
structure Turn where
  tag : Tag
  element : Element
  progress : Progress

namespace Turn

/-- What the tag is about at its turn, in canonical form. -/
def canonical (t : Turn) : Text := t.element.canonical t.tag.binding.keyword

/-- The text that the dictionary has for the hash of the tag, if it has a hash and the dictionary knows it. -/
def known? (s : Setting) (t : Turn) : Option Text := resolved? s.domain t.progress.dictionary t.tag.binding

/-- The text that the tag registers, with its key: there is none when it has a hash or is about nothing. -/
def offered? (s : Setting) (t : Turn) : Option (DictionaryKey × Text) := Template.offered? s.domain t.element t.tag.binding

/-- The tag has a hash that the dictionary does not know. -/
def Missing (s : Setting) (t : Turn) : Prop := t.tag.binding.hash ≠ none ∧ t.known? s = none

instance (s : Setting) (t : Turn) : Decidable (t.Missing s) := inferInstanceAs (Decidable (_ ∧ _))

/-- What becomes of the binding: it gets the hash of what it is about when it has none and is about something, and stays as it is
otherwise. -/
def binding (t : Turn) : Binding :=
  if t.tag.binding.hash = none ∧ t.canonical ≠ [] then { t.tag.binding with hash := some (textHash t.canonical) }
  else t.tag.binding

/-- What is written: what the catalogs say of the text that the hash stands for or that is registered. -/
def write? (s : Setting) (t : Turn) : Option (Keyword × Text) :=
  ((t.known? s).or ((t.offered? s).map Prod.snd)).map fun canonical =>
    (t.tag.binding.keyword, s.lookup (t.tag.binding.domainOr s.domain) canonical s.locale)

/-- What is said of a hash that the dictionary does not know. -/
def missingMessage (s : Setting) (t : Turn) : Text :=
  s.file ++ ": " ++ t.tag.raw ++ " not found in dictionary: " ++ t.element.outerHtml ++
    " Was the corresponding string removed from the source file? Remove the tag or restore the string."

/-- A tag at its turn has a hash that is not known, or one that is, or it has none and is about nothing, or it has none and is
about something. -/
theorem cases (s : Setting) (t : Turn) :
    (∃ hash, t.tag.binding.hash = some hash ∧ t.progress.dictionary.get? ⟨t.tag.binding.domainOr s.domain, hash⟩ = none ∧
      t.Missing s ∧ t.offered? s = none ∧ t.write? s = none ∧ t.binding = t.tag.binding) ∨
    (∃ hash canonical, t.tag.binding.hash = some hash ∧
      t.progress.dictionary.get? ⟨t.tag.binding.domainOr s.domain, hash⟩ = some canonical ∧
      ¬t.Missing s ∧ t.offered? s = none ∧
      t.write? s = some (t.tag.binding.keyword, s.lookup (t.tag.binding.domainOr s.domain) canonical s.locale) ∧
      t.binding = t.tag.binding) ∨
    (t.tag.binding.hash = none ∧ t.canonical = [] ∧ ¬t.Missing s ∧ t.offered? s = none ∧ t.write? s = none ∧
      t.binding = t.tag.binding) ∨
    (t.tag.binding.hash = none ∧ t.canonical ≠ [] ∧ ¬t.Missing s ∧
      t.offered? s = some (keyOf (t.tag.binding.domainOr s.domain) t.canonical, t.canonical) ∧
      t.write? s = some (t.tag.binding.keyword, s.lookup (t.tag.binding.domainOr s.domain) t.canonical s.locale) ∧
      t.binding = { t.tag.binding with hash := some (textHash t.canonical) }) := by
  cases hhash : t.tag.binding.hash with
  | some hash =>
    have hunoffered : t.offered? s = none := by simp [offered?, Template.offered?, hhash]
    cases hkey : t.progress.dictionary.get? ⟨t.tag.binding.domainOr s.domain, hash⟩ with
    | none =>
      left
      simp [hkey, Missing, known?, resolved?, write?, binding, hhash, hunoffered]
    | some canonical =>
      right; left
      simp [hkey, Missing, known?, resolved?, write?, binding, hhash, hunoffered]
  | none =>
    have hunknown : t.known? s = none := by simp [known?, resolved?, hhash]
    by_cases hblank : t.canonical = []
    · have hunoffered : t.offered? s = none := by
        rw [canonical] at hblank
        simp [offered?, Template.offered?, hblank]
      right; right; left
      simp [hblank, Missing, hunknown, hunoffered, write?, binding, hhash]
    · have hoffered : t.offered? s = some (keyOf (t.tag.binding.domainOr s.domain) t.canonical, t.canonical) :=
        offered?_eq_some_iff.2 ⟨hhash, hblank, rfl⟩
      right; right; right
      simp [hblank, Missing, hunknown, hoffered, write?, binding, hhash]

end Turn

/-- The turns of tags of an element, in order, when its revision so far is given. -/
def turns (s : Setting) (e : Element) : List Tag → Revision → Progress → List Turn
  | [], _, _ => []
  | t :: rest, r, p =>
    let out := localizeTag s e t r p
    ⟨t, r.apply e, p⟩ :: turns s e rest out.2.1 out.2.2

/-- What localizing makes of tags, by their turns: the bindings, what is written, what is registered, and the errors. -/
structure Outcome (s : Setting) (r : Revision) (p : Progress) (us : List Turn) (out : List Binding × Revision × Progress) :
    Prop where
  bindings : out.1 = us.map Turn.binding
  revision : out.2.1 = r.writeAll (us.filterMap (Turn.write? s))
  dictionary : out.2.2.dictionary = p.dictionary.registerAll (us.filterMap (Turn.offered? s))
  log : p.log.Extends out.2.2.log
  errors : out.2.2.log.messages .error =
    p.log.messages .error ++ (us.filter (Turn.Missing s)).map fun u => p.log.shortened (u.missingMessage s)

section

variable {s : Setting} {e : Element} {r : Revision} {p : Progress}

/-- Without tags nothing happens. -/
theorem Outcome.nil (s : Setting) (r : Revision) (p : Progress) : Outcome s r p [] ([], r, p) :=
  ⟨rfl, rfl, rfl, Log.Extends.refl p.log, (List.append_nil _).symm⟩

/-- What localizing makes of tags one after the other. -/
theorem Outcome.append {us vs : List Turn} {out more : List Binding × Revision × Progress} (h : Outcome s r p us out)
    (h' : Outcome s out.2.1 out.2.2 vs more) : Outcome s r p (us ++ vs) (out.1 ++ more.1, more.2) := by
  refine ⟨?_, ?_, ?_, h.log.trans h'.log, ?_⟩
  · rw [List.map_append, h.bindings, h'.bindings]
  · rw [List.filterMap_append, Revision.writeAll_append, ← h.revision, h'.revision]
  · rw [List.filterMap_append, Dictionary.registerAll_append, ← h.dictionary, h'.dictionary]
  · rw [List.filter_append, List.map_append, ← List.append_assoc, ← h.errors, h'.errors]
    simp only [Log.shortened_of_extends h.log]

/-- What localizing makes of one tag. -/
theorem outcome_localizeTag (s : Setting) (e : Element) (t : Tag) (r : Revision) (p : Progress) :
    Outcome s r p [⟨t, r.apply e, p⟩] ([(localizeTag s e t r p).1], (localizeTag s e t r p).2) := by
  have hcases := Turn.cases s ⟨t, r.apply e, p⟩
  dsimp only at hcases
  rcases hcases with ⟨hash, hhash, hkey, hmissing, hoffered, hwrite, hbinding⟩ |
    ⟨hash, canonical, hhash, hkey, hmissing, hoffered, hwrite, hbinding⟩ |
    ⟨hhash, hblank, hmissing, hoffered, hwrite, hbinding⟩ | ⟨hhash, hne, hmissing, hoffered, hwrite, hbinding⟩
  · have hout : localizeTag s e t r p =
        (t.binding, r, { p with log := p.log.error (Turn.missingMessage s ⟨t, r.apply e, p⟩) }) := by
      simp only [localizeTag, hhash, hkey, Turn.missingMessage]
    rw [hout]
    refine ⟨?_, ?_, ?_, Log.extends_add _ _ _, ?_⟩
    · simp [hbinding]
    · simp [hwrite, Revision.writeAll]
    · simp [hoffered, Dictionary.registerAll]
    · simp [hmissing]
  · have hout : localizeTag s e t r p = writeTag s (t.binding.domainOr s.domain) canonical t.binding r p := by
      simp only [localizeTag, hhash, hkey]
    rw [hout, writeTag]
    refine ⟨?_, ?_, ?_, Log.Extends.refl p.log, ?_⟩
    · simp [hbinding]
    · simp [hwrite, Revision.writeAll]
    · simp [hoffered, Dictionary.registerAll]
    · simp [hmissing]
  · have hempty : ((r.apply e).canonical t.binding.keyword).isEmpty = true := List.isEmpty_iff.2 hblank
    have hout : localizeTag s e t r p = (t.binding, r, p) := by simp only [localizeTag, hhash, hempty, if_true]
    rw [hout]
    refine ⟨?_, ?_, ?_, Log.Extends.refl p.log, ?_⟩
    · simp [hbinding]
    · simp [hwrite, Revision.writeAll]
    · simp [hoffered, Dictionary.registerAll]
    · simp [hmissing]
  · have hempty : ((r.apply e).canonical t.binding.keyword).isEmpty = false := List.isEmpty_eq_false_iff.2 hne
    simp only [localizeTag, hhash, hempty, Bool.false_eq_true, if_false, writeTag]
    refine ⟨?_, ?_, ?_, ?_, ?_⟩
    · simp [hbinding]
      rfl
    · simp [hwrite, Revision.writeAll]
      rfl
    · simp [hoffered, Dictionary.registerAll]
      rfl
    · dsimp only
      split
      · exact Log.extends_add _ _ _
      · exact Log.Extends.refl p.log
    · dsimp only
      split <;> simp [hmissing]

/-- What localizing makes of tags in order. -/
theorem outcome_localizeTags (s : Setting) (e : Element) (tags : List Tag) (r : Revision) (p : Progress) :
    Outcome s r p (turns s e tags r p) (localizeTags s e tags r p) := by
  induction tags generalizing r p with
  | nil => exact Outcome.nil s r p
  | cons t rest ih => exact (outcome_localizeTag s e t r p).append (ih _ _)

/-- The tags whose turns these are. -/
theorem map_tag_turns (s : Setting) (e : Element) (tags : List Tag) (r : Revision) (p : Progress) :
    (turns s e tags r p).map Turn.tag = tags := by
  induction tags generalizing r p with
  | nil => rfl
  | cons t rest ih => rw [turns, List.map_cons, ih]

end

/-! ## The tags of an element -/

/-- The turns of the tags of an element, in order. -/
def turnsOf (mark : Text) (s : Setting) (e : Element) (p : Progress) : List Turn :=
  let (tags, log) := Tag.ofMarker (e.marker mark) p.log
  turns s e tags (Revision.keep e) { p with log }

/-- The writes that the tags of an element make, in order. -/
def writesOf (mark : Text) (s : Setting) (e : Element) (p : Progress) : Writes :=
  (turnsOf mark s e p).filterMap (Turn.write? s)

section

variable (mark : Text) (s : Setting) (e : Element) (p : Progress)

/-- The tags whose turns come are those that are read from the marker. -/
theorem map_tag_turnsOf : (turnsOf mark s e p).map Turn.tag = (Tag.ofMarker (e.marker mark) p.log).1 :=
  map_tag_turns _ _ _ _ _

/-- What localizing makes of an element: what its tags write is written, and its marker has what becomes of their bindings. -/
theorem localizeElement_fst :
    (localizeElement mark s e p).1 =
      ((Revision.keep e).writeAll (writesOf mark s e p)).setMarker mark
        (Binding.writtenAll ((turnsOf mark s e p).map Turn.binding)) := by
  have h := outcome_localizeTags s e (Tag.ofMarker (e.marker mark) p.log).1 (Revision.keep e)
    { p with log := (Tag.ofMarker (e.marker mark) p.log).2 }
  simp only [localizeElement, h.bindings, h.revision]
  rfl

/-- Localizing an element registers what its tags offer. -/
theorem dictionary_localizeElement :
    (localizeElement mark s e p).2.dictionary = p.dictionary.registerAll ((turnsOf mark s e p).filterMap (Turn.offered? s)) :=
  (outcome_localizeTags s e (Tag.ofMarker (e.marker mark) p.log).1 (Revision.keep e)
    { p with log := (Tag.ofMarker (e.marker mark) p.log).2 }).dictionary

/-- The errors of an element: one for each word of its marker that is no tag, and one for each tag whose hash is missing. -/
def errorsOf : List Text :=
  ((Tag.invalidWords (e.marker mark)).map fun w => (TagError.invalid w).message) ++
    ((turnsOf mark s e p).filter (Turn.Missing s)).map (Turn.missingMessage s)

/-- Localizing an element logs its errors. -/
theorem errors_localizeElement :
    (localizeElement mark s e p).2.log.messages .error =
      p.log.messages .error ++ (errorsOf mark s e p).map p.log.shortened := by
  have h := outcome_localizeTags s e (Tag.ofMarker (e.marker mark) p.log).1 (Revision.keep e)
    { p with log := (Tag.ofMarker (e.marker mark) p.log).2 }
  have hroot := Log.shortened_of_extends (Tag.extends_ofMarker (e.marker mark) p.log)
  refine h.errors.trans ?_
  simp only [Tag.messages_ofMarker, hroot, errorsOf, turnsOf, List.map_append, List.map_map, List.append_assoc]
  rfl

end

end Localization

end LocalePages
