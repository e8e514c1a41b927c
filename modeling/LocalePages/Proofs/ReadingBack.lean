import LocalePages.Proofs.BodyRules

/-!
# Nodes that are read back

A node is read back at a place when reading what was written of it plants the node there, and leaves all that the next token is judged
by (`Builder.ReadsBack`). Nodes that are read back one by one are read back one after the other (`Builder.reads_all`), and so by
induction on the tree every node is that fits at a place of the body (`Builder.InBody.readsBack_of_fits`).
-/

namespace LocalePages

/-- How what follows the start tag of an element is read, where it is read as text, and whether a line feed there is dropped. -/
def StartRule.reads? : StartRule → Option (Reading × Bool)
  | text reading => some (reading, false)
  | frame reading => some (reading, false)
  | area reading => some (reading, true)
  | _ => none

theorem Token.StartsMarkup.head_ne_mark {t : Text} (h : Token.StartsMarkup t) : t.head? ≠ some '\ufeff' := by
  obtain ⟨u, rfl, -⟩ := h
  simp

namespace Node

/-- Whether no two of some nodes that stand side by side are texts. -/
def apart : List Node → Bool
  | [] => true
  | n :: rest => !(n.isText && rest.head?.any isText) && apart rest

/-- Whether a node is written with something at its start that is not dropped there. -/
def startsKept : Node → Bool
  | .element name _ _ => name.tag.isTagName
  | .text t => !t.isEmpty && t.head? != some '\ufeff'
  | _ => true

variable {n : Node} {t : Text}

/-- What is not text is written as markup. -/
theorem startsMarkup_writtenBefore (h : n.startsKept = true) (htext : n.isText = false) (rest : Text) :
    Token.StartsMarkup (n.writtenBefore rest .outside) := by
  cases n with
  | element name attrs children =>
    have hwritten : Node.writtenBefore rest .outside (.element name attrs children) =
        if name.isVoid then startTagText name attrs ++ writtenAllBefore rest (WriteContext.outside.inside name) children
        else startTagText name attrs ++
          writtenAllBefore ("</" ++ name.tag ++ (">" ++ rest)) (WriteContext.outside.inside name) children := rfl
    rw [hwritten]
    split <;> exact Token.startsMarkup_startTagText h attrs _
  | text t => cases htext
  | comment t => exact ⟨_, rfl, rfl⟩
  | doctype name => exact ⟨_, rfl, rfl⟩

theorem head_writtenBefore (h : n.startsKept = true) (rest : Text) : (n.writtenBefore rest .outside).head? ≠ some '\ufeff' := by
  cases htext : n.isText with
  | false => exact (startsMarkup_writtenBefore h htext rest).head_ne_mark
  | true =>
    cases n with
    | text t =>
      cases t with
      | nil => cases h
      | cons c t =>
        have hc : c ≠ '\ufeff' := by simpa [startsKept] using h
        have hwritten : Node.writtenBefore rest .outside (.text (c :: t)) =
            escapedTextChar c ++ (t.flatMap escapedTextChar ++ rest) := by
          rw [← List.append_assoc]
          rfl
        rw [hwritten]
        rcases Reference.escapes_escapedTextChar c with ⟨name, -, hescape⟩ | ⟨hescape, -⟩ <;> rw [hescape]
        · simp
        · simpa using hc
    | _ => cases htext

/-- What some nodes start with is told by the first of them. -/
theorem startWithLineFeed_cons (m : Node) (ms : List Node) : startWithLineFeed (m :: ms) = startWithLineFeed [m] := by
  unfold startWithLineFeed
  split <;> split <;> simp_all

/-- Whether nodes fit one after the other: each of them does, and no two texts stand side by side. -/
theorem fitsAll_iff {outer : List Text} {ns : List Node} :
    fitsAll outer ns = true ↔ (∀ n ∈ ns, n.fits outer = true) ∧ apart ns = true := by
  induction ns with
  | nil => simp [fitsAll, apart]
  | cons n ns ih =>
    rw [fitsAll, apart, List.forall_mem_cons, Bool.and_eq_true, Bool.and_eq_true, Bool.and_eq_true, ih]
    tauto

/-- What it is for an element to fit. -/
theorem fits_element {outer : List Text} {name : ElementName} {attrs : Attrs} {children : List Node}
    (h : (element name attrs children).fits outer = true) :
    name = .html name.tag ∧ name.tag.isTagName = true ∧ attrs.isPlain = true ∧ (startRule name.tag).opens name.tag outer = true ∧
      (((startRule name.tag = .bare ∨ startRule name.tag = .void ∨ startRule name.tag = .separator) ∧ name.isVoid = true ∧
          children = []) ∨
        (∃ reading drops, (startRule name.tag).reads? = some (reading, drops) ∧ reading.holds name drops children = true) ∨
        (name.isVoid = false ∧ name.isRaw = false ∧ (startRule name.tag).endsBy (endRule name.tag) = true ∧
          (endRule name.tag).suits name.tag = true ∧ (startRule name.tag = .preformatted → startWithLineFeed children = false) ∧
          fitsAll (name.tag :: outer) children = true)) := by
  unfold fits at h
  simp only [Bool.and_eq_true, beq_iff_eq] at h
  obtain ⟨⟨⟨⟨hspace, hname⟩, hattrs⟩, hopens⟩, hrest⟩ := h
  refine ⟨congrArg (ElementName.mk · name.tag) hspace, hname, hattrs, hopens, ?_⟩
  generalize startRule name.tag = rule at hrest
  cases rule with
  | bare | void | separator => exact .inl (by simpa using hrest)
  | text reading | frame reading | area reading => exact .inr (.inl ⟨reading, _, rfl, hrest⟩)
  | _ => exact .inr (.inr (by simpa [and_assoc] using hrest))

/-- What fits is written with something at its start that is not dropped there. -/
theorem startsKept_of_fits {outer : List Text} (h : n.fits outer = true) : n.startsKept = true := by
  cases n with
  | element name attrs children => exact (fits_element h).2.1
  | text t =>
    simp only [fits, Bool.and_eq_true] at h
    simp [startsKept, h]
  | _ => rfl

end Node

/-- What is planted last is what a node ends in. -/
theorem Arena.endsInText_plantNode {a : Arena} {p : Nat} (hp : p < a.size) (n : Node) :
    (a.plantNode p n).endsInText p = n.isText := by
  rw [Arena.endsInText, Arena.lastFirst_plantNode hp, List.head?_cons, Option.any_some, Arena.isText, Arena.shape_plantNode hp]
  cases n <;> rfl

/-- Only the end tags of forms fall under the rule for them. -/
theorem endRule_eq_form_iff {n : Text} : endRule n = .form ↔ n = "form" := by
  constructor
  · contrapose
    intro hn
    have other {c : Prop} [Decidable c] {r s : EndRule} (hr : r ≠ .form) (hs : s ≠ .form) : (if c then r else s) ≠ .form := by
      split <;> assumption
    unfold endRule
    rw [if_neg hn]
    iterate 10 refine other (by decide) ?_
    decide
  · rintro rfl
    rfl

namespace Builder

variable {b b' : Builder} {outer : List Text} {n : Text} {attrs : Attrs} {rule : StartRule} {t rest : Text} {p : Nat}

/-! ## One after the other -/

/-- Whether reading what was written of a node, with any text after it, plants the node and leads to a page of some kind. Text goes
up to the next markup. -/
def ReadsInto (b : Builder) (p : Nat) (n : Node) (After : Builder → Prop) : Prop :=
  ∀ rest : Text, rest.head? ≠ some '\ufeff' → (n.isText = true → Token.StartsMarkup rest) →
    ∃ b', Reads b .ordinary (n.writtenBefore rest .outside) b' .ordinary rest ∧ After b' ∧ b'.arena = b.arena.plantNode p n

/-- Whether reading what was written of a node plants the node and does nothing else. -/
def ReadsBack (b : Builder) (p : Nat) (n : Node) : Prop := b.ReadsInto p n fun b' => b'.settings = b.ready.settings

/-- What a page is after a node was planted, by what it was before. -/
theorem ReadsInto.imp {m : Node} {After After' : Builder → Prop} (h : b.ReadsInto p m After) (hp : p < b.arena.size)
    (himp : ∀ b', After b' → Arena.Keeps p b.arena b'.arena → After' b') : b.ReadsInto p m After' := by
  intro rest hrest hmarkup
  obtain ⟨b', hread, hafter, harena⟩ := h rest hrest hmarkup
  exact ⟨b', hread, himp b' hafter (harena ▸ Arena.keeps_plantNode m b.arena p hp), harena⟩

/-- Whether a node can come next: no text joins it, and no line feed of it is dropped. -/
structure Admits (b : Builder) (p : Nat) (n : Node) : Prop where
  text : n.isText = true → b.arena.endsInText p = false
  lineFeed : b.newlineDrops = true → Node.startWithLineFeed [n] = false

/-- The first node in a new element joins nothing. -/
theorem admits_of_grown {m : Node} (hp : b.current < b.arena.size) (harena : b'.arena = (b.grown n attrs).arena)
    (hfeed : b'.newlineDrops = true → Node.startWithLineFeed [m] = false) : b'.Admits b.arena.size m where
  text _ := by
    rw [harena]
    exact Arena.endsInText_plant hp _
  lineFeed := hfeed

/-- Nodes that are read one by one, each where those before it lead to, are read one after the other. `Place` says of a page that
certain nodes come next. -/
theorem reads_all (Place : List Node → Builder → Prop) (hsize : ∀ {ns b}, Place ns b → p < b.arena.size)
    (hstep : ∀ {n ns b}, Place (n :: ns) b → b.Admits p n →
      b.ReadsInto p n fun b' => Place ns b' ∧ b'.newlineDrops = false) {ns : List Node}
    (hkept : ∀ n ∈ ns, n.startsKept = true) (hapart : Node.apart ns = true) (hplace : Place ns b)
    (hfirst : ∀ n ∈ ns.head?, b.Admits p n) (hhead : rest.head? ≠ some '\ufeff')
    (hlast : ns.getLast?.any Node.isText = true → Token.StartsMarkup rest) :
    ∃ b', Reads b .ordinary (Node.writtenAllBefore rest .outside ns) b' .ordinary rest ∧ Place [] b' ∧
      b'.arena = b.arena.plantAll p ns := by
  induction ns generalizing b with
  | nil => exact ⟨b, .refl _ _ _, hplace, rfl⟩
  | cons n ns ih =>
    rw [Node.apart, Bool.and_eq_true, Bool.not_eq_true'] at hapart
    obtain ⟨hpair, hapart⟩ := hapart
    obtain ⟨-, hkept⟩ := List.forall_mem_cons.1 hkept
    -- what comes after the first node, which is the next one or the end
    have hafter : (Node.writtenAllBefore rest .outside ns).head? ≠ some '\ufeff' ∧
        (n.isText = true → Token.StartsMarkup (Node.writtenAllBefore rest .outside ns)) := by
      cases ns with
      | nil => exact ⟨hhead, fun htext => hlast (by simpa using htext)⟩
      | cons m ns =>
        have hm := hkept m List.mem_cons_self
        refine ⟨Node.head_writtenBefore hm _, fun htext => Node.startsMarkup_writtenBefore hm ?_ _⟩
        simpa [htext] using hpair
    obtain ⟨b₁, hread, ⟨hplace₁, hdrops₁⟩, harena⟩ := hstep hplace (hfirst n rfl) _ hafter.1 hafter.2
    have hfirst₁ : ∀ m ∈ ns.head?, b₁.Admits p m := by
      intro m hm
      refine ⟨fun htext => ?_, fun hdrops => by rw [hdrops₁] at hdrops; cases hdrops⟩
      rw [harena, Arena.endsInText_plantNode (hsize hplace)]
      rw [hm, Option.any_some, htext, Bool.and_true] at hpair
      exact hpair
    have hlast₁ : ns.getLast?.any Node.isText = true → Token.StartsMarkup rest := by
      intro h
      refine hlast ?_
      cases ns with
      | nil => cases h
      | cons m ns => rwa [List.getLast?_cons_cons]
    obtain ⟨b₂, hread₂, hplace₂, harena₂⟩ := ih hkept hapart hplace₁ hfirst₁ hlast₁
    refine ⟨b₂, hread.trans hread₂, hplace₂, ?_⟩
    rw [harena₂, harena]
    rfl

/-! ## Text and comments -/

/-- Text is read back where all of its runs are taken in. -/
theorem readsBack_text (hplace : b.current < b.arena.size) (htakes : b.ready.TakesText t) (hplain : t.isPlain = true) (hne : t ≠ [])
    (hadmits : b.Admits b.current (.text t)) : b.ReadsBack b.current (.text t) := by
  intro rest _ hmarkup
  have hdrops : b.newlineDrops = true → t.head? ≠ some '\n' := by
    intro h hhead
    obtain ⟨u, rfl⟩ : ∃ u, t = '\n' :: u := List.head?_eq_some_iff.1 hhead
    exact absurd (hadmits.lineFeed h) (by simp [Node.startWithLineFeed])
  obtain ⟨b', hread, hfixed, harena⟩ := reads_text hplace htakes hne (hadmits.text rfl) hdrops (Token.escaped_ne_nil hne)
    fun fuel => Token.next_escaped hplain hne (hmarkup rfl)
  exact ⟨b', hread, settings_eq hfixed, harena⟩

/-- A comment is read back where it is put. -/
theorem readsBack_comment (hplain : t.isPlainComment = true)
    (haccept : b.ready.accept (.comment t) = { b.ready with arena := b.arena.plant p (.comment t) }) :
    b.ReadsBack p (.comment t) := by
  intro rest _ _
  obtain ⟨b', hread, hfixed, harena⟩ := reads_comment hplain haccept rest
  exact ⟨b', hread, settings_eq hfixed, harena⟩

/-! ## Elements -/

/-- A start tag after which ordinary markup comes is read. -/
theorem reads_start_of_accept (hname : n.isTagName = true) (hattrs : attrs.isPlain = true)
    (haccept : b.ready.accept (.start (startTagOf n attrs)) = b') (hnone : b'.reading = none) (rest : Text) :
    Reads b .ordinary (startTagText (.html n) attrs ++ rest) b' .ordinary rest := by
  have htag : (ElementName.html n).tag.isTagName = true := hname
  have hread : Reads b .ordinary (startTagText (.html n) attrs ++ rest) (b.ready.accept (.start (startTagOf n attrs)))
      ((b.ready.accept (.start (startTagOf n attrs))).reading.getD .ordinary) rest := reads_start htag hattrs
  rwa [haccept, hnone] at hread

/-- An end tag of ordinary markup is read. -/
theorem reads_end_of_accept (hname : n.isTagName = true) (haccept : b.ready.accept (.close n) = b') (hnone : b'.reading = none)
    (rest : Text) : Reads b .ordinary (Token.endTagText n ++ rest) b' .ordinary rest := by
  have hread : Reads b .ordinary (Token.endTagText n ++ rest) (b.ready.accept (.close n))
      ((b.ready.accept (.close n)).reading.getD .ordinary) rest :=
    reads_end fun fuel hfuel => Token.next_endTagText hname hfuel
  rwa [haccept, hnone] at hread

/-- An element with an end tag is read by its start tag, what is inside, and its end tag. -/
theorem reads_element {b₁ b₂ : Builder} {children : List Node} (hvoid : (ElementName.html n).isVoid = false)
    (hraw : (ElementName.html n).isRaw = false)
    (hstart : ∀ rest, Reads b .ordinary (startTagText (.html n) attrs ++ rest) b₁ .ordinary rest)
    (hinside : Reads b₁ .ordinary (Node.writtenAllBefore (Token.endTagText n ++ rest) .outside children) b₂ .ordinary
      (Token.endTagText n ++ rest))
    (hend : Reads b₂ .ordinary (Token.endTagText n ++ rest) b' .ordinary rest) :
    Reads b .ordinary (Node.writtenBefore rest .outside (.element (.html n) attrs children)) b' .ordinary rest := by
  rw [writtenBefore_element hvoid, hraw]
  exact ((hstart _).trans hinside).trans hend

/-- An element without an end tag is read back where its start tag puts it at the place. -/
theorem readsBack_closed (hname : n.isTagName = true) (hattrs : attrs.isPlain = true) (hvoid : (ElementName.html n).isVoid = true)
    (hfixed : (b.ready.accept (.start (startTagOf n attrs))).fixed = b.ready.fixed)
    (harena : (b.ready.accept (.start (startTagOf n attrs))).arena = (b.grown n attrs).arena) :
    b.ReadsBack b.current (.element (.html n) attrs []) := by
  intro rest _ _
  have hwritten : Node.writtenBefore rest .outside (.element (.html n) attrs []) =
      if (ElementName.html n).isVoid then startTagText (.html n) attrs ++ rest
      else startTagText (.html n) attrs ++ ("</" ++ n ++ (">" ++ rest)) := rfl
  rw [hwritten, if_pos hvoid]
  exact ⟨_, reads_start_of_accept hname hattrs rfl (reading_eq (settings_eq hfixed)) rest, settings_eq hfixed, harena⟩

/-- The start tag of an element that is read as text opens it, and it is read up to its end tag. -/
theorem opensText_of_reads {drops : Bool} {reading : Reading} (h : b.Stands outer) (hn : n ≠ "template".toList)
    (hattrs : attrs.isPlain = true) (hrule : rule.reads? = some (reading, drops)) :
    OpensText b (b.ready.openBy (startTagOf n attrs) rule) n attrs reading drops := by
  have hready : b.ready.Stands outer := h.congr rfl rfl rfl
  have hnoFrames : b.ready.noFrames.Stands outer := h.congr rfl rfl rfl
  cases rule with
  | text r =>
    obtain ⟨rfl, rfl⟩ := Prod.mk.inj (Option.some.inj hrule)
    rw [openBy, openText, hready.openTag_eq hn hattrs]
    refine ⟨?_, ?_, ?_, ?_, id⟩ <;> rfl
  | frame r =>
    obtain ⟨rfl, rfl⟩ := Prod.mk.inj (Option.some.inj hrule)
    rw [openBy, openText, hnoFrames.openTag_eq hn hattrs]
    refine ⟨?_, ?_, ?_, ?_, id⟩ <;> rfl
  | area r =>
    obtain ⟨rfl, rfl⟩ := Prod.mk.inj (Option.some.inj hrule)
    rw [openBy, openText, hnoFrames.openTag_eq hn hattrs]
    refine ⟨?_, ?_, ?_, ?_, fun _ => rfl⟩ <;> rfl
  | _ => cases hrule

/-! ## The body -/

namespace InBody

/-- All text is taken in. -/
theorem takesText (h : b.InBody outer) (t : Text) : b.TakesText t := by
  intro b' hfixed hkeeps run _
  have h' : b'.InBody outer := h.of_keeps (settings_eq hfixed) hkeeps
  have haccept : b'.accept (pieceOf run) = b'.addText run ∨ b'.accept (pieceOf run) = b'.noFrames.addText run := by
    unfold pieceOf
    split
    · refine .inl (accept_of_settled (h'.isForeign_eq_false _) ?_)
      rw [h'.mode, rule, inBody, h'.reopenFormatting_eq]
    · refine .inr (accept_of_settled (h'.isForeign_eq_false _) ?_)
      rw [h'.mode, rule, inBody, h'.reopenFormatting_eq]
  rcases haccept with haccept | haccept
  · rw [haccept, h'.addText_eq, current_eq (settings_eq hfixed)]
    exact ⟨hfixed, rfl⟩
  · rw [haccept, h'.noFrames.addText_eq, show b'.noFrames.current = b.current from current_eq (settings_eq hfixed)]
    exact ⟨hfixed, rfl⟩

/-- What the start tag of an element does is what its rule says. -/
theorem accept_start (h : b.InBody outer) (hrule : startRule n ≠ .barred) (attrs : Attrs) :
    b.accept (.start (startTagOf n attrs)) = b.openBy (startTagOf n attrs) (startRule n) := by
  refine accept_of_settled (h.isForeign_eq_false _) ?_
  have hname : startRule (startTagOf n attrs).name ≠ .barred := hrule
  rw [h.mode]
  exact startInBody_eq b hname

/-- What the end tag of an element does is what its rule says. -/
theorem accept_close (h : b.InBody outer) (hrule : endRule n ≠ .barred) : b.accept (.close n) = b.closeBy n (endRule n) := by
  refine accept_of_settled (h.isForeign_eq_false _) ?_
  rw [h.mode]
  exact closeInBody_eq b hrule

/-- What was opened by a rule is a place of the body, inside the new element. -/
theorem of_openedBy (h : b.InBody outer) (hn : n ≠ "template".toList) (hends : (startRule n).endsBy (endRule n) = true)
    (hfixed : b'.fixed = (openedBy b (startRule n) n attrs).fixed) (harena : b'.arena = (b.grown n attrs).arena) :
    b'.InBody (n :: outer) := by
  have hsettings := settings_eq hfixed
  have hstack : b'.stack = b.arena.size :: b.stack := stack_eq hsettings
  have hfosters : b'.fosters = b.fosters := (fosters_eq hsettings :)
  refine ⟨(h.push n attrs).congr harena hstack hfosters, (mode_eq hsettings).trans h.mode, ?_, ?_, ?_⟩
  · have hformatting : b'.formatting = if (startRule n).isFormatting then .element b.arena.size (startTagOf n attrs) :: b.formatting
        else b.formatting := formatting_eq hsettings
    rw [hformatting, hstack, openFormats, List.zip_cons_cons, List.filter_cons]
    dsimp only
    split
    · rw [List.map_cons, List.map_cons, h.formatting]
      rfl
    · exact h.formatting
  · have hform : b'.form = if startRule n = .form then some b.arena.size else b.form := form_eq hsettings
    rw [hform, List.contains_cons, ← h.form]
    by_cases hrule : startRule n = .form
    · obtain rfl := endRule_eq_form_iff.1 ((StartRule.eq_form_iff_of_endsBy hends).1 hrule)
      rw [if_pos hrule]
      rfl
    · have hne : "form".toList ≠ n := by
        rintro rfl
        exact hrule rfl
      rw [if_neg hrule, beq_false_of_ne hne, Bool.false_or]
  · rw [List.contains_cons, h.template, beq_false_of_ne (Ne.symm hn)]
    rfl

/-- Nodes that are read back at a place of the body are read back there one after the other. -/
theorem reads_inside (h : b.InBody outer) {ns : List Node} (hinside : ∀ m ∈ ns, m.startsKept = true ∧
      ∀ c : Builder, c.InBody outer → c.Admits c.current m → c.ReadsBack c.current m)
    (hapart : Node.apart ns = true) (hfirst : ∀ m ∈ ns.head?, b.Admits b.current m) (hhead : rest.head? ≠ some '\ufeff')
    (hlast : ns.getLast?.any Node.isText = true → Token.StartsMarkup rest) :
    ∃ b', Reads b .ordinary (Node.writtenAllBefore rest .outside ns) b' .ordinary rest ∧ b'.InBody outer ∧
      b'.current = b.current ∧ b'.ready.settings = b.ready.settings ∧ b'.arena = b.arena.plantAll b.current ns := by
  let Place (ms : List Node) (c : Builder) : Prop :=
    (∀ m ∈ ms, m ∈ ns) ∧ c.InBody outer ∧ c.current = b.current ∧ c.ready.settings = b.ready.settings
  have hstep {m : Node} {ms : List Node} {c : Builder} (hc : Place (m :: ms) c) (hadmits : c.Admits b.current m) :
      c.ReadsInto b.current m fun c' => Place ms c' ∧ c'.newlineDrops = false := by
    obtain ⟨hmem, hplace, hcurrent, hsettings⟩ := hc
    obtain ⟨hm, hms⟩ := List.forall_mem_cons.1 hmem
    rw [← hcurrent] at hadmits ⊢
    refine ((hinside m hm).2 c hplace hadmits).imp hplace.current_lt fun c' hsettings' hkeeps => ?_
    have hready : c'.ready.settings = c.ready.settings := (congrArg Builder.ready hsettings' :)
    exact ⟨⟨hms, hplace.ready.of_keeps hsettings' hkeeps, (current_eq hsettings').trans hcurrent, hready.trans hsettings⟩,
      (congrArg Builder.newlineDrops hsettings' :)⟩
  obtain ⟨b', hread, ⟨-, hplace, hcurrent, hsettings⟩, harena⟩ := reads_all Place (fun hc => hc.2.2.1 ▸ hc.2.1.current_lt) hstep
    (fun m hm => (hinside m hm).1) hapart ⟨fun _ hm => hm, h, rfl, rfl⟩ hfirst hhead hlast
  exact ⟨b', hread, hplace, hcurrent, hsettings, harena⟩

/-- An element that other nodes are in is read back where those are. -/
theorem readsBack_holding (h : b.InBody outer) (hname : n.isTagName = true) (hattrs : attrs.isPlain = true)
    (hopens : (startRule n).opens n outer = true) {children : List Node} (hvoid : (ElementName.html n).isVoid = false)
    (hraw : (ElementName.html n).isRaw = false) (hends : (startRule n).endsBy (endRule n) = true)
    (hsuits : (endRule n).suits n = true) (hfeed : startRule n = .preformatted → Node.startWithLineFeed children = false)
    (hinside : ∀ m ∈ children, m.startsKept = true ∧
      ∀ c : Builder, c.InBody (n :: outer) → c.Admits c.current m → c.ReadsBack c.current m)
    (hapart : Node.apart children = true) : b.ReadsBack b.current (.element (.html n) attrs children) := by
  intro rest hrest _
  have hbarred : startRule n ≠ .barred := by
    intro heq
    rw [heq] at hopens
    cases hopens
  have hendBarred : endRule n ≠ .barred := by
    intro heq
    rw [heq] at hsuits
    cases hsuits
  have hn : n ≠ "template".toList := by
    rintro rfl
    exact hbarred rfl
  -- the start tag
  obtain ⟨hfixed, harena⟩ := h.ready.openBy_eq hn hattrs hopens hends rfl
  have hstart := reads_start_of_accept hname hattrs (h.ready.accept_start hbarred attrs) (reading_eq (settings_eq hfixed))
  generalize b.ready.openBy (startTagOf n attrs) (startRule n) = b₁ at hstart hfixed harena
  have hsettings := settings_eq hfixed
  have hcurrent : b₁.current = b.arena.size := by
    rw [current, show b₁.stack = b.arena.size :: b.stack from stack_eq hsettings]
    rfl
  have hplace₁ : b₁.InBody (n :: outer) := h.ready.of_openedBy hn hends hfixed harena
  have hadmits : ∀ m ∈ children.head?, b₁.Admits b₁.current m := by
    intro m hm
    rw [hcurrent]
    refine admits_of_grown h.ready.current_lt harena fun hdrops => ?_
    have hpre : b₁.newlineDrops = (startRule n == .preformatted) := (congrArg Builder.newlineDrops hsettings :)
    rw [hpre, beq_iff_eq] at hdrops
    have hfirst := hfeed hdrops
    rwa [List.eq_cons_of_mem_head? hm, Node.startWithLineFeed_cons] at hfirst
  -- what is inside
  have hend := Token.startsMarkup_endTagText hname rest
  obtain ⟨b₂, hread, hplace₂, hcurrent₂, hsettings₂, harena₂⟩ := hplace₁.reads_inside hinside hapart hadmits
    (hend.head_ne_mark) fun _ => hend
  rw [hcurrent] at hcurrent₂ harena₂
  -- the end tag
  have hopened : b₂.ready.settings = (openedBy b.ready (startRule n) n attrs).ready.settings :=
    hsettings₂.trans (congrArg Builder.ready hsettings :)
  have hstack : b₂.ready.stack = b.arena.size :: b.stack := stack_eq hopened
  have hnameOf : b₂.ready.nameOf b.arena.size = .html n := by
    obtain ⟨below, m, _, -, hnames, hopen⟩ := hplace₂.exists_current
    obtain rfl := (List.cons.inj hnames).1
    rw [← hcurrent₂]
    exact nameOf_of_opens hopen
  have hnoForm : startRule n = .form → b.form = none := by
    intro heq
    rw [heq] at hopens
    simp only [StartRule.opens, Bool.and_eq_true, Bool.not_eq_true'] at hopens
    have hform := h.form
    rw [hopens.2] at hform
    exact Option.isSome_eq_false_iff.1 hform |> Option.isNone_iff_eq_none.1
  have htemplate : b₂.ready.isOpen "template" = false := (hplace₂.ready.isOpen_eq _).trans hplace₂.template
  have hclose := reads_end_of_accept hname ((hplace₂.ready.accept_close hendBarred).trans
    (closeBy_eq hstack hnameOf hends hsuits (formatting_eq hopened) (form_eq hopened) hnoForm htemplate)) rfl rest
  refine ⟨_, reads_element hvoid hraw hstart hread hclose, ?_, ?_⟩
  · show ({ b₂.ready.settings with stack := b.stack, formatting := b.formatting, form := b.form } : Builder) = b.ready.settings
    rw [hopened]
    rfl
  · refine harena₂.trans ?_
    rw [harena]
    rfl

/-- Every node that fits at a place of the body is read back there. -/
theorem readsBack_of_fits : (n : Node) → {outer : List Text} → n.fits outer = true → {b : Builder} → b.InBody outer →
    b.Admits b.current n → b.ReadsBack b.current n
  | .doctype _, _, hfits, _, _, _ => by cases hfits
  | .comment t, _, hfits, _, h, _ => readsBack_comment hfits (h.ready.accept_comment (by rw [h.ready.mode]; rfl) t)
  | .text t, _, hfits, _, h, hadmits => by
    simp only [Node.fits, Bool.and_eq_true, Bool.not_eq_true', List.isEmpty_eq_false_iff] at hfits
    exact readsBack_text h.current_lt (h.ready.takesText t) hfits.1.2 hfits.1.1 hadmits
  | .element name attrs children, outer, hfits, b, h, _ => by
    obtain ⟨hhtml, hname, hattrs, hopens, hkind⟩ := Node.fits_element hfits
    rw [hhtml]
    generalize name.tag = n at *
    subst hhtml
    have hbarred : startRule n ≠ .barred := by
      intro heq
      rw [heq] at hopens
      cases hopens
    have hn : n ≠ "template".toList := by
      rintro rfl
      exact hbarred rfl
    have haccept := h.ready.accept_start hbarred attrs
    rcases hkind with ⟨hclosed, hvoid, rfl⟩ | ⟨reading, drops, hreads, hholds⟩ | ⟨hvoid, hraw, hends, hsuits, hfeed, hall⟩
    · obtain ⟨hfixed, harena⟩ := h.ready.openBy_closed hn hattrs hopens hclosed
      exact readsBack_closed hname hattrs hvoid (haccept ▸ hfixed) (haccept ▸ harena)
    · intro rest hrest _
      exact reads_rawElement h.toStands hname hattrs hholds (haccept ▸ opensText_of_reads h.toStands hn hattrs hreads) hrest
    · obtain ⟨hinside, hapart⟩ := Node.fitsAll_iff.1 hall
      exact h.readsBack_holding hname hattrs hopens hvoid hraw hends hsuits hfeed
        (fun m hm => ⟨Node.startsKept_of_fits (hinside m hm), fun c hc => readsBack_of_fits m (hinside m hm) hc⟩) hapart
termination_by n => sizeOf n
decreasing_by
  have := List.sizeOf_lt_of_mem hm
  simp
  omega

end InBody

end Builder

end LocalePages
