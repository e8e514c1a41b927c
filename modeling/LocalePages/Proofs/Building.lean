import LocalePages.Page.Template
import LocalePages.Proofs.Elements
import LocalePages.Proofs.Registration
import LocalePages.Proofs.Sweeps

/-!
# What building a template does

Building changes nothing of a page but its markers, and what it writes into a marker depends on the element alone
(`Template.build_document`). The texts that it registers are those the page offers: one for each tag that has no hash and is about
something, in order (`Document.offered`). Each of them is registered under its own key, whether or not it becomes the owner; where
the log tells of no collision, it is the owner (`Template.build_owned`). The errors of building are the texts that do not own their
keys, and what is misplaced in markers (`Template.counts_buildWithTrace`).
-/

namespace LocalePages

/-! ## Hashes are words -/

/-- The digits that hashes are made of. -/
def Digest.digits : Text := "0123456789abcdef"

/-- The digits of a word of a digest. -/
theorem Digest.mem_digits_of_mem_hexWord {word : UInt32} {c : Char} (h : c ∈ hexWord word) : c ∈ digits := by
  have hdigits : ∀ n < 16, Nat.digitChar n ∈ digits := by decide
  obtain ⟨shift, -, rfl⟩ := List.mem_map.1 h
  refine hdigits _ ?_
  rw [UInt32.toNat_and]
  exact Nat.lt_of_le_of_lt Nat.and_le_right (by decide)

/-- A hash has digits only. -/
theorem mem_digits_of_mem_textHash {canonical : Text} {c : Char} (h : c ∈ textHash canonical) : c ∈ Digest.digits := by
  have hc := List.mem_of_mem_take h
  simp only [Digest.sha1, List.mem_append] at hc
  rcases hc with (((hc | hc) | hc) | hc) | hc <;> exact Digest.mem_digits_of_mem_hexWord hc

/-- A hash has as many digits as name a text. -/
theorem length_textHash (canonical : Text) : (textHash canonical).length = hashLength := by
  simp [textHash, Digest.sha1, Digest.hexWord, hashLength]

/-- The hash of a text can be read back in a tag. -/
theorem isWord_textHash (canonical : Text) : isWord (textHash canonical) = true := by
  have hdigits : ∀ c ∈ Digest.digits, isWordChar c = true := by decide
  have hne : textHash canonical ≠ [] := List.ne_nil_of_length_pos (by rw [length_textHash]; decide)
  simp only [isWord, Bool.and_eq_true, Bool.not_eq_true', List.isEmpty_eq_false_iff, List.all_eq_true]
  exact ⟨hne, fun c hc => hdigits c (mem_digits_of_mem_textHash hc)⟩

namespace Template

/-! ## What becomes of the tags -/

/-- What building makes of a binding: it drops one that has a hash, keeps one that is about nothing, and gives any other its
hash. -/
def builtBinding (e : Element) (a : Binding) : Option Binding :=
  if a.hash.isSome then none
  else if (e.canonical a.keyword).isEmpty then some a
  else some { a with hash := some (textHash (e.canonical a.keyword)) }

/-- What building makes of the bindings of an element, in order. -/
def builtBindings (mark : Text) (e : Element) : List Binding := (e.bindings mark).filterMap (builtBinding e)

/-- What building makes of an element: it writes the bindings into the marker. -/
def builtRevision (mark : Text) (e : Element) : Revision :=
  (Revision.keep e).setMarker mark (Binding.writtenAll (builtBindings mark e))

/-- The text that a binding offers, with its key: there is none when it has a hash or is about nothing. -/
def offered? (domain : Text) (e : Element) (a : Binding) : Option (DictionaryKey × Text) :=
  if a.hash.isSome || (e.canonical a.keyword).isEmpty then none
  else some (keyOf (a.domainOr domain) (e.canonical a.keyword), e.canonical a.keyword)

/-- The texts that an element offers, with their keys. -/
def offeredBy (mark domain : Text) (e : Element) : List (DictionaryKey × Text) :=
  (e.bindings mark).filterMap (offered? domain e)

end Template

/-- The texts that a page offers for translation, with their keys, in order. -/
def Document.offered (d : Document) (mark domain : Text) : List (DictionaryKey × Text) :=
  (d.annotated mark).flatMap (Template.offeredBy mark domain)

namespace Template

/-! ## Errors in the log -/

/-- The entry that tells of two texts with one key. -/
def collisionEntry (file : Text) (log : Log) (key : DictionaryKey) (existing canonical : Text) : LogEntry :=
  ⟨.error, log.shortened (file ++ ": hash collision for " ++ key.written ++ ": " ++ quoted existing ++ " and " ++
    quoted canonical)⟩

/-- No entry that was added to a log tells of two texts with one key. -/
def NoCollision (file : Text) (before after : Log) : Prop :=
  ∀ key existing canonical, collisionEntry file before key existing canonical ∉ before.added after

/-- What in the marker of an element does not belong into a source page: the words that are no tags, each as often as it occurs,
and the tags that have a hash. -/
def misplaced (mark : Text) (e : Element) : List Text :=
  Tag.invalidWords (e.marker mark) ++ ((e.bindings mark).filter fun a => a.hash.isSome).map Binding.written

/-- Progress on registering texts: they are registered in order, the log only grows, and where it tells of no collision, each of
the texts owns its key. -/
structure Progress.Advances (file : Text) (p : Progress) (texts : List (DictionaryKey × Text)) (p' : Progress) : Prop where
  registered : p'.registered = p.registered ++ texts
  dictionary : p'.dictionary = p.dictionary.registerAll texts
  log : p.log.Extends p'.log
  owned : NoCollision file p.log p'.log → ∀ x ∈ texts, p'.dictionary.get? x.1 = some x.2

/-- Progress on registering texts with some errors, of which each text that does not own its key is one more. -/
structure Progress.Counts (file : Text) (p : Progress) (errors : Nat) (texts : List (DictionaryKey × Text)) (p' : Progress) : Prop
    extends p.Advances file texts p' where
  count : p'.log.count .error = p.log.count .error + errors + p'.dictionary.displaced texts

/-! ## Progress -/

/-- Logs of one directory tell of a collision in the same way. -/
theorem collisionEntry_of_extends {log log' : Log} (h : log.Extends log') (file : Text) (key : DictionaryKey)
    (existing canonical : Text) :
    collisionEntry file log' key existing canonical = collisionEntry file log key existing canonical := by
  simp only [collisionEntry, Log.shortened_of_extends h]

namespace Progress

/-- A log that grew is progress on no text. -/
theorem advances_log {log log' : Log} (file : Text) (dictionary : Dictionary) (registered : List (DictionaryKey × Text))
    (h : log.Extends log') : Advances file ⟨dictionary, log, registered⟩ [] ⟨dictionary, log', registered⟩ :=
  ⟨(List.append_nil _).symm, rfl, h, fun _ _ hx => absurd hx List.not_mem_nil⟩

/-- Doing nothing is progress on no text. -/
theorem Advances.refl (file : Text) (p : Progress) : p.Advances file [] p :=
  advances_log file p.dictionary p.registered (Log.Extends.refl p.log)

/-- Progress goes on. A text that owns its key does so after all that is registered later. -/
theorem Advances.trans {file : Text} {p q r : Progress} {texts more : List (DictionaryKey × Text)}
    (h : p.Advances file texts q) (h' : q.Advances file more r) : p.Advances file (texts ++ more) r := by
  refine ⟨?_, ?_, h.log.trans h'.log, ?_⟩
  · rw [h'.registered, h.registered, List.append_assoc]
  · rw [h'.dictionary, h.dictionary, Dictionary.registerAll_append]
  · intro hclear x hx
    have hfirst : NoCollision file p.log q.log := fun key existing canonical he =>
      hclear key existing canonical (h.log.added_mono h'.log he)
    have hthen : NoCollision file q.log r.log := by
      intro key existing canonical he
      rw [collisionEntry_of_extends h.log] at he
      exact hclear key existing canonical (h.log.added_subset r.log he)
    rcases List.mem_append.1 hx with hx | hx
    · rw [h'.dictionary]
      exact Dictionary.get?_registerAll_of_some more (h.owned hfirst x hx)
    · exact h'.owned hthen x hx

/-- A log with some more errors is progress on no text. -/
theorem counts_log {log log' : Log} {errors : Nat} (file : Text) (dictionary : Dictionary)
    (registered : List (DictionaryKey × Text)) (h : log.Extends log') (hcount : log'.count .error = log.count .error + errors) :
    Counts file ⟨dictionary, log, registered⟩ errors [] ⟨dictionary, log', registered⟩ :=
  ⟨advances_log file dictionary registered h, hcount⟩

/-- Doing nothing is progress without an error. -/
theorem Counts.refl (file : Text) (p : Progress) : p.Counts file 0 [] p :=
  counts_log file p.dictionary p.registered (Log.Extends.refl p.log) rfl

/-- The errors of progress add up: whether a text owns its key is settled when it is registered. -/
theorem Counts.trans {file : Text} {p q r : Progress} {errors others : Nat} {texts more : List (DictionaryKey × Text)}
    (h : p.Counts file errors texts q) (h' : q.Counts file others more r) :
    p.Counts file (errors + others) (texts ++ more) r := by
  refine ⟨h.toAdvances.trans h'.toAdvances, ?_⟩
  have hsettled : r.dictionary.displaced texts = q.dictionary.displaced texts := by
    rw [h'.dictionary]
    refine Dictionary.displaced_registerAll more fun x hx => ?_
    rw [h.dictionary]
    exact Dictionary.isSome_get?_registerAll p.dictionary hx
  have happend : r.dictionary.displaced (texts ++ more) = r.dictionary.displaced texts + r.dictionary.displaced more :=
    List.countP_append
  rw [happend, hsettled, h'.count, h.count]
  omega

end Progress

/-- Building a tag makes of its binding what it makes of it anywhere. -/
theorem buildTag_fst (site : Site) (e : Element) (a : Binding) (p : Progress) : (buildTag site e a p).1 = builtBinding e a := by
  unfold buildTag builtBinding
  split
  · rfl
  · dsimp only
    split <;> rfl

/-- Building a tag is progress on the text that its binding offers. -/
theorem advances_buildTag (site : Site) (e : Element) (a : Binding) (p : Progress) :
    p.Advances site.file (offered? site.domain e a).toList (buildTag site e a p).2 := by
  unfold buildTag offered?
  by_cases hhash : a.hash.isSome = true
  · simp only [hhash, if_true, Bool.true_or, Option.toList_none]
    exact Progress.advances_log site.file p.dictionary p.registered (Log.extends_add _ _ _)
  · by_cases hblank : (e.canonical a.keyword).isEmpty = true
    · simp only [hhash, hblank, if_true, Bool.or_true, Option.toList_none, Bool.false_eq_true, if_false]
      exact Progress.Advances.refl site.file p
    · simp only [hhash, hblank, Bool.or_false, Option.toList_some, Bool.false_eq_true, if_false]
      generalize e.canonical a.keyword = canonical
      generalize keyOf (a.domainOr site.domain) canonical = key
      refine ⟨rfl, rfl, ?_, ?_⟩
      · dsimp only
        split
        · exact Log.extends_add _ _ _
        · exact Log.Extends.refl _
      · dsimp only
        intro hclear x hx
        rw [List.mem_singleton.1 hx]
        refine Dictionary.get?_register_self fun existing hcollision => ?_
        simp only [hcollision] at hclear
        exact hclear key existing canonical (Log.mem_added_add (Log.Extends.refl p.log) _ _)

/-- A tag that has a hash is an error of building it. -/
theorem counts_buildTag (site : Site) (e : Element) (a : Binding) (p : Progress) :
    p.Counts site.file (if a.hash.isSome then 1 else 0) (offered? site.domain e a).toList (buildTag site e a p).2 := by
  refine ⟨advances_buildTag site e a p, ?_⟩
  unfold buildTag offered?
  by_cases hhash : a.hash.isSome = true
  · simp [hhash, Dictionary.displaced]
  · by_cases hblank : (e.canonical a.keyword).isEmpty = true
    · simp [hhash, hblank, Dictionary.displaced]
    · simp only [hhash, hblank, Bool.or_false, Option.toList_some, Bool.false_eq_true, if_false, Dictionary.displaced_register]
      cases (p.dictionary.register (keyOf (a.domainOr site.domain) (e.canonical a.keyword)) (e.canonical a.keyword)).2 <;> simp

/-- Building tags makes of each binding what it makes of it anywhere. -/
theorem buildTags_fst (site : Site) (e : Element) (tags : List Tag) (p : Progress) :
    (buildTags site e tags p).1 = (tags.map Tag.binding).filterMap (builtBinding e) := by
  induction tags generalizing p with
  | nil => rfl
  | cons t rest ih =>
    simp only [buildTags, ih, buildTag_fst, List.map_cons, List.filterMap_cons]
    cases builtBinding e t.binding <;> rfl

/-- Building tags is progress on the texts that their bindings offer, and each that has a hash is an error. -/
theorem counts_buildTags (site : Site) (e : Element) (tags : List Tag) (p : Progress) :
    p.Counts site.file ((tags.map Tag.binding).countP fun a => a.hash.isSome)
      ((tags.map Tag.binding).filterMap (offered? site.domain e)) (buildTags site e tags p).2 := by
  induction tags generalizing p with
  | nil => exact Progress.Counts.refl site.file p
  | cons t rest ih =>
    have h := (counts_buildTag site e t.binding p).trans (ih (buildTag site e t.binding p).2)
    rw [List.map_cons, List.filterMap_cons, List.countP_cons, Nat.add_comm]
    cases hoffered : offered? site.domain e t.binding <;> simpa [hoffered, buildTags] using h

/-- What building makes of an element depends on the element alone. -/
theorem buildElement_fst (mark : Text) (site : Site) (e : Element) (p : Progress) :
    (buildElement mark site e p).1 = builtRevision mark e := by
  simp only [buildElement, buildTags_fst, Tag.ofMarker_fst, builtRevision, builtBindings, Element.bindings]

/-- Building an element is progress on the texts it offers, and what is misplaced in its marker is an error. -/
theorem counts_buildElement (mark : Text) (site : Site) (e : Element) (p : Progress) :
    p.Counts site.file (misplaced mark e).length (offeredBy mark site.domain e) (buildElement mark site e p).2 := by
  have hread := Progress.counts_log site.file p.dictionary p.registered (Tag.extends_ofMarker (e.marker mark) p.log)
    (Tag.count_ofMarker (e.marker mark) p.log)
  have hbuilt := counts_buildTags site e (Tag.ofMarker (e.marker mark) p.log).1
    ⟨p.dictionary, (Tag.ofMarker (e.marker mark) p.log).2, p.registered⟩
  have hlength : (misplaced mark e).length =
      (Tag.invalidWords (e.marker mark)).length + (e.bindings mark).countP fun a => a.hash.isSome := by
    rw [misplaced, List.length_append, List.length_map, List.countP_eq_length_filter]
  rw [Tag.ofMarker_fst] at hbuilt
  rw [hlength]
  simp only [buildElement, Tag.ofMarker_fst]
  exact hread.trans hbuilt

/-- Building elements one after the other is progress on the texts they offer, and what is misplaced in their markers is an error. -/
theorem counts_foldl_buildElement (mark : Text) (site : Site) (elements : List Element) (p : Progress) :
    p.Counts site.file (elements.flatMap (misplaced mark)).length (elements.flatMap (offeredBy mark site.domain))
      (elements.foldl (fun p e => (buildElement mark site e p).2) p) := by
  induction elements generalizing p with
  | nil => exact Progress.Counts.refl site.file p
  | cons e rest ih =>
    rw [List.flatMap_cons, List.length_append]
    exact (counts_buildElement mark site e p).trans (ih _)

/-! ## What building does to a page -/

/-- Building a page revises its annotated elements, each from what it is in the page. -/
theorem build_document (mark domain : Text) (d : Document) (log : Log) :
    (build ⟨mark, false⟩ domain d log).1.document = d.revised mark (builtRevision mark) := by
  have hstep : ∀ e ∈ Node.annotatedAll mark d.nodes, ∀ p, True →
      (buildElement mark ⟨d.displayName, domain⟩ e p).1 = builtRevision mark e ∧ True :=
    fun e _ p _ => ⟨buildElement_fst mark _ e p, trivial⟩
  have hnodes := (Node.sweepAll_eq_revisedAll hstep (s := ⟨.empty, log, []⟩) trivial).1
  simp only [build, buildWithTrace, Scanner.prepare, Bool.false_eq_true, if_false, hnodes, Document.revised]

/-- Building a page is progress on the texts it offers, and what is misplaced in its markers is an error. -/
theorem counts_buildWithTrace (mark domain : Text) (d : Document) (log : Log) :
    Progress.Counts d.displayName ⟨.empty, log, []⟩ ((d.annotated mark).flatMap (misplaced mark)).length (d.offered mark domain)
      (buildWithTrace ⟨mark, false⟩ domain d log).2 := by
  have h := counts_foldl_buildElement mark ⟨d.displayName, domain⟩ (d.annotated mark) ⟨.empty, log, []⟩
  simp only [buildWithTrace, Scanner.prepare, Bool.false_eq_true, if_false, Node.sweepAll_snd]
  exact h

/-- Building a page is progress on the texts it offers. -/
theorem advances_buildWithTrace (mark domain : Text) (d : Document) (log : Log) :
    Progress.Advances d.displayName ⟨.empty, log, []⟩ (d.offered mark domain) (buildWithTrace ⟨mark, false⟩ domain d log).2 :=
  (counts_buildWithTrace mark domain d log).toAdvances

/-- The dictionary of a template is what becomes of the empty one when the texts that the page offers are registered. -/
theorem build_dictionary (mark domain : Text) (d : Document) (log : Log) :
    (build ⟨mark, false⟩ domain d log).1.dictionary = Dictionary.empty.registerAll (d.offered mark domain) :=
  (advances_buildWithTrace mark domain d log).dictionary

/-- The template of a page does not depend on what was logged. -/
theorem build_congr (scanner : Scanner) (domain : Text) (d : Document) (log log' : Log) :
    (build scanner domain d log).1 = (build scanner domain d log').1 := by
  -- building with a charset is building the page that was given one
  have hprepared : ∀ log, (build scanner domain d log).1 = (build ⟨scanner.mark, false⟩ domain (scanner.prepare d) log).1 :=
    fun _ => rfl
  have hdocument := (build_document scanner.mark domain (scanner.prepare d) log).trans
    (build_document scanner.mark domain (scanner.prepare d) log').symm
  have hdictionary := (build_dictionary scanner.mark domain (scanner.prepare d) log).trans
    (build_dictionary scanner.mark domain (scanner.prepare d) log').symm
  rw [hprepared, hprepared]
  generalize (build ⟨scanner.mark, false⟩ domain (scanner.prepare d) log).1 = built at hdocument hdictionary ⊢
  generalize (build ⟨scanner.mark, false⟩ domain (scanner.prepare d) log').1 = built' at hdocument hdictionary ⊢
  obtain ⟨document, dictionary⟩ := built
  cases hdocument
  cases hdictionary
  rfl

/-- Where the log tells of no collision, every text that the page offers owns its key. -/
theorem build_owned {mark domain : Text} {d : Document} {log : Log}
    (h : NoCollision d.displayName log (build ⟨mark, false⟩ domain d log).2) {x : DictionaryKey × Text}
    (hx : x ∈ d.offered mark domain) : (build ⟨mark, false⟩ domain d log).1.dictionary.get? x.1 = some x.2 :=
  (advances_buildWithTrace mark domain d log).owned h x hx

end Template

/-! ## Built elements -/

/-- An element as building leaves it, with all that is inside it. -/
def Element.built (mark : Text) (e : Element) : Element := e.revised mark (Template.builtRevision mark)

namespace Template

variable {mark : Text} {e : Element} {a b : Binding}

/-- What becomes of a binding and what it offers: nothing when it has a hash, itself and nothing when it is about nothing, and its
hash and its text otherwise. -/
theorem builtBinding_cases (e : Element) (a : Binding) (domain : Text) :
    (a.hash ≠ none ∧ builtBinding e a = none ∧ offered? domain e a = none) ∨
    (a.hash = none ∧ e.canonical a.keyword = [] ∧ builtBinding e a = some a ∧ offered? domain e a = none) ∨
    (a.hash = none ∧ e.canonical a.keyword ≠ [] ∧
      builtBinding e a = some { a with hash := some (textHash (e.canonical a.keyword)) } ∧
      offered? domain e a = some (keyOf (a.domainOr domain) (e.canonical a.keyword), e.canonical a.keyword)) := by
  unfold builtBinding offered?
  cases hhash : a.hash with
  | some hash => simp
  | none =>
    by_cases hblank : e.canonical a.keyword = []
    · simp [hblank]
    · simp [hblank]

/-- A binding offers the canonical text it is about when it has no hash and is about something. -/
theorem offered?_eq_some_iff {domain : Text} {x : DictionaryKey × Text} :
    offered? domain e a = some x ↔ a.hash = none ∧ e.canonical a.keyword ≠ [] ∧
      x = (keyOf (a.domainOr domain) (e.canonical a.keyword), e.canonical a.keyword) := by
  rcases builtBinding_cases e a domain with ⟨hhash, -, hoffered⟩ | ⟨-, hblank, -, hoffered⟩ | ⟨hhash, hne, -, hoffered⟩
  · simp [hoffered, hhash]
  · simp [hoffered, hblank]
  · simp [hoffered, hhash, hne, @eq_comm _ x]

/-- A binding that building makes comes from one without a hash. It stays when it is about nothing, and gets the hash of what it
is about otherwise. -/
theorem builtBinding_eq_some_iff :
    builtBinding e a = some b ↔ a.hash = none ∧
      (e.canonical a.keyword = [] ∧ b = a ∨
        e.canonical a.keyword ≠ [] ∧ b = { a with hash := some (textHash (e.canonical a.keyword)) }) := by
  rcases builtBinding_cases e a [] with ⟨hhash, hbuilt, -⟩ | ⟨hhash, hblank, hbuilt, -⟩ | ⟨hhash, hne, hbuilt, -⟩
  · simp [hbuilt, hhash]
  · simp [hbuilt, hhash, hblank, @eq_comm _ b]
  · simp [hbuilt, hhash, hne, @eq_comm _ b]

/-- A binding keeps its domain and its keyword when it is built. -/
theorem domain_keyword_of_builtBinding (h : builtBinding e a = some b) : b.domain = a.domain ∧ b.keyword = a.keyword := by
  obtain ⟨-, ⟨-, rfl⟩ | ⟨-, rfl⟩⟩ := builtBinding_eq_some_iff.1 h <;> exact ⟨rfl, rfl⟩

/-- What building writes into a marker can be read back. -/
theorem readable_of_mem_builtBindings (h : b ∈ builtBindings mark e) : b.Readable := by
  obtain ⟨a, ha, hab⟩ := List.mem_filterMap.1 h
  have hr := Element.readable_of_mem_bindings ha
  obtain ⟨-, ⟨-, rfl⟩ | ⟨-, rfl⟩⟩ := builtBinding_eq_some_iff.1 hab
  · exact hr
  · refine ⟨hr.domain, hr.keyword, ?_⟩
    simpa using isWord_textHash _

/-- The bindings that building makes are different, as those are that they come from. -/
theorem nodup_builtBindings (mark : Text) (e : Element) : (builtBindings mark e).Nodup := by
  refine List.Nodup.filterMap ?_ (Element.nodup_bindings e)
  intro a a' b hb hb'
  obtain ⟨hdomain, hkeyword⟩ := domain_keyword_of_builtBinding hb
  obtain ⟨hdomain', hkeyword'⟩ := domain_keyword_of_builtBinding hb'
  have hhash := (builtBinding_eq_some_iff.1 hb).1
  have hhash' := (builtBinding_eq_some_iff.1 hb').1
  obtain ⟨domain, k, hash⟩ := a
  obtain ⟨domain', k', hash'⟩ := a'
  rw [Binding.mk.injEq]
  exact ⟨hdomain.symm.trans hdomain', hkeyword.symm.trans hkeyword', hhash.trans hhash'.symm⟩

/-- A binding that building leaves without a hash is about nothing, and not about the marker. -/
theorem canonical_of_mem_builtBindings (h : b ∈ builtBindings mark e) (hhash : b.hash = none) :
    e.canonical b.keyword = [] ∧ b.keyword ≠ .attribute mark := by
  obtain ⟨a, ha, hab⟩ := List.mem_filterMap.1 h
  obtain ⟨-, ⟨hblank, rfl⟩ | ⟨-, rfl⟩⟩ := builtBinding_eq_some_iff.1 hab
  · refine ⟨hblank, fun hk => ?_⟩
    rw [hk] at hblank
    exact Element.canonical_marker_ne_nil ha hblank
  · cases hhash

/-- A binding that building gave a hash stands for a text that the element offers, and this is what it is about. -/
theorem mem_offeredBy_of_mem_builtBindings (domain : Text) {hash : Text} (h : b ∈ builtBindings mark e)
    (hhash : b.hash = some hash) :
    e.canonical b.keyword ≠ [] ∧ (⟨b.domainOr domain, hash⟩, e.canonical b.keyword) ∈ offeredBy mark domain e := by
  obtain ⟨a, ha, hab⟩ := List.mem_filterMap.1 h
  obtain ⟨hnone, ⟨hblank, rfl⟩ | ⟨hne, rfl⟩⟩ := builtBinding_eq_some_iff.1 hab
  · rw [hnone] at hhash
    cases hhash
  · cases hhash
    refine ⟨hne, List.mem_filterMap.2 ⟨a, ha, ?_⟩⟩
    simp only [offered?, hnone, Option.isSome_none, List.isEmpty_eq_false_iff.2 hne, Bool.or_self, Bool.false_eq_true, if_false]
    rfl

/-- Building leaves an annotated element annotated. -/
theorem has_builtRevision (mark : Text) (e : Element) : (builtRevision mark e).attrs.has mark = true := by
  simp only [builtRevision, Revision.setMarker, Attrs.has_eq_isSome_get?, Attrs.get?_set_self, Option.isSome_some]

/-- The annotated elements of a template are those of the page, built. -/
theorem annotated_build (mark domain : Text) (d : Document) (log : Log) :
    (build ⟨mark, false⟩ domain d log).1.document.annotated mark = (d.annotated mark).map (Element.built mark) := by
  rw [build_document]
  exact Node.annotatedAll_revisedAll fun e _ => ⟨rfl, has_builtRevision mark e⟩

end Template

namespace Element

variable {mark : Text} {e : Element}

/-- A built element has the bindings in its marker that building makes. -/
theorem marker_built (h : e.attrs.has mark = true) :
    (e.built mark).marker mark = Binding.writtenAll (Template.builtBindings mark e) := by
  simp only [built, revised, h, if_true, marker, Template.builtRevision, Revision.setMarker, Attrs.get?_set_self,
    Option.getD_some]

/-- The text of built nodes is what it was. -/
theorem textContentsAll_built (mark : Text) (nodes : List Node) :
    Node.textContentsAll (Node.revisedAll mark (Template.builtRevision mark) nodes) = Node.textContentsAll nodes :=
  Node.textContentsAll_revisedAll fun _ _ => rfl

/-- Only the marker of an element is changed when it is built. -/
theorem bound_built {k : Keyword} (hk : k ≠ .attribute mark) : (e.built mark).bound k = e.bound k := by
  rcases k with _ | name
  · unfold built revised
    split <;> exact textContentsAll_built mark e.children
  · have hname : name ≠ mark := fun h => hk (congrArg _ h)
    unfold built revised
    split
    · simp only [bound, Template.builtRevision, Revision.setMarker, Revision.keep, Attrs.get?_set_of_ne _ _ hname]
    · rfl

end Element

end LocalePages
