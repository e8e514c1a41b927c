import LocalePages.Proofs.ReadingBack
import LocalePages.Markup.Document

/-!
# Plain pages

A page is read in modes, and around its body there is little that can stand: comments, a doctype at the start, blank text in the head
and after it, and the elements that belong into the head. Here the nodes that are read there as they are written are told by the mode
that they are read in and the one that they lead to (`Node.nextInPage`, `Node.nextInRoot`). A page whose nodes lead from the first mode
to the last one is read back from the way it is written (`Document.nodes_parse_toHtml`).
-/

namespace LocalePages

namespace Node

/-- Whether a text is blank, and is read as it is written. -/
def isPlainBlank (t : Text) : Bool := !t.isEmpty && t.all isBlank && t.isPlain

/-- Whether a node is one that is read as it is written in the head. -/
def fitsHead : Node → Bool
  | .element name attrs children =>
    name.space == .html && name.tag.isTagName && attrs.isPlain && name.tag.isOneOf ("noscript" :: Builder.headTags) &&
      match startRule name.tag with
      | .bare => name.isVoid && children.isEmpty
      | .text reading => reading.holds name false children
      | _ => false
  | .text t => isPlainBlank t
  | .comment t => t.isPlainComment
  | .doctype _ => false

/-- The mode that a node directly in the outermost element leads to, where it is read as it is written. -/
def nextInRoot : Mode → Node → Option Mode
  | .beforeHead, .element name attrs children =>
    if name = .html "head" ∧ attrs.isPlain ∧ children.all fitsHead ∧ apart children then some .afterHead else none
  | .afterHead, .element name attrs children =>
    if name = .html "body" ∧ attrs.isPlain ∧ fitsAll ["body", "html"] children then some .afterBody else none
  | .afterHead, .text t => if isPlainBlank t then some .afterHead else none
  | mode, .comment t => if mode ∈ [.beforeHead, .afterHead, .afterBody] ∧ t.isPlainComment then some mode else none
  | _, _ => none

/-- The mode that an outermost node leads to, where it is read as it is written. -/
def nextInPage : Mode → Node → Option Mode
  | .initial, .doctype name => if name.isDoctypeName then some .beforeHtml else none
  | mode, .element name attrs children =>
    if mode ∈ [.initial, .beforeHtml] ∧ name = .html "html" ∧ attrs.isPlain ∧
        children.foldlM nextInRoot .beforeHead = some .afterBody ∧ apart children then
      some .afterAfterBody
    else none
  | mode, .comment t => if mode ∈ [.initial, .beforeHtml, .afterAfterBody] ∧ t.isPlainComment then some mode else none
  | _, _ => none

end Node

/-- Whether a document is one that is read as it is written. -/
def Document.isPlain (d : Document) : Bool := d.nodes.foldlM Node.nextInPage .initial == some .afterAfterBody

namespace Node

theorem startsKept_of_isPlainBlank {t : Text} (h : isPlainBlank t = true) : (text t).startsKept = true := by
  simp only [isPlainBlank, Bool.and_eq_true, Bool.not_eq_true', List.isEmpty_eq_false_iff] at h
  obtain ⟨⟨hne, hblank⟩, -⟩ := h
  obtain ⟨c, t, rfl⟩ := List.exists_cons_of_ne_nil hne
  rw [List.all_cons, Bool.and_eq_true] at hblank
  have hne : c ≠ '\ufeff' := by
    rintro rfl
    cases hblank.1
  simp [startsKept, hne]

/-- What fits in the head is written with something at its start that is not dropped there. -/
theorem startsKept_of_fitsHead {m : Node} (hfits : m.fitsHead = true) : m.startsKept = true := by
  cases m with
  | element name attrs children =>
    simp only [Node.fitsHead, Bool.and_eq_true] at hfits
    exact hfits.1.1.1.2
  | text t => exact Node.startsKept_of_isPlainBlank hfits
  | _ => rfl

theorem startsKept_of_nextInRoot {mode mode' : Mode} {m : Node} (h : nextInRoot mode m = some mode') : m.startsKept = true := by
  unfold nextInRoot at h
  split at h
  · split_ifs at h with hhead
    obtain ⟨rfl, -⟩ := hhead
    rfl
  · split_ifs at h with hbody
    obtain ⟨rfl, -⟩ := hbody
    rfl
  · split_ifs at h with hblank
    exact startsKept_of_isPlainBlank hblank
  · rfl
  · cases h

/-- Nodes lead from one mode to another by way of the mode that the first of them leads to. -/
theorem foldlM_cons_eq_some {next : Mode → Node → Option Mode} {mode mode' : Mode} {m : Node} {ms : List Node} :
    (m :: ms).foldlM next mode = some mode' ↔ ∃ after, next mode m = some after ∧ ms.foldlM next after = some mode' := by
  rw [List.foldlM_cons]
  exact Option.bind_eq_some_iff

/-- Each of some nodes that lead from one mode to another leads from some mode to the next one. -/
theorem exists_next_of_leads {next : Mode → Node → Option Mode} {mode mode' : Mode} {ms : List Node}
    (h : ms.foldlM next mode = some mode') : ∀ m ∈ ms, ∃ before after, next before m = some after := by
  induction ms generalizing mode with
  | nil => exact List.forall_mem_nil _
  | cons m ms ih =>
    obtain ⟨after, hnext, hrest⟩ := foldlM_cons_eq_some.1 h
    exact List.forall_mem_cons.2 ⟨⟨mode, after, hnext⟩, ih hrest⟩

/-- Outermost nodes are markup. -/
theorem markup_of_nextInPage {mode mode' : Mode} {m : Node} (h : nextInPage mode m = some mode') :
    m.startsKept = true ∧ m.isText = false := by
  unfold nextInPage at h
  split at h
  · exact ⟨rfl, rfl⟩
  · split_ifs at h with hhtml
    obtain ⟨-, rfl, -⟩ := hhtml
    exact ⟨rfl, rfl⟩
  · exact ⟨rfl, rfl⟩
  · cases h

/-- Nodes that are no texts stand apart. -/
theorem apart_of_forall {ms : List Node} (h : ∀ m ∈ ms, m.isText = false) : apart ms = true := by
  induction ms with
  | nil => rfl
  | cons m ms ih =>
    obtain ⟨hm, hms⟩ := List.forall_mem_cons.1 h
    rw [apart, hm, Bool.false_and, ih hms]
    rfl

end Node

/-! ## Stages -/

/-- The names of the elements around a place in a mode outside of the body. -/
def Mode.around : Mode → List Text
  | .beforeHead | .afterHead => ["html"]
  | .inHead => ["head", "html"]
  | .inBody | .afterBody | .afterAfterBody => ["body", "html"]
  | _ => []

theorem Mode.around_eq_nil {mode : Mode} (h : mode ∈ [.initial, .beforeHtml]) : mode.around = [] := by
  simp only [List.mem_cons, List.not_mem_nil, or_false] at h
  rcases h with rfl | rfl <;> rfl

namespace Builder

variable {b b' : Builder} {mode mode' : Mode} {stack : List Nat} {attrs : Attrs} {n t rest : Text} {p : Nat}

/-- Whether a page is in a mode, with certain elements open and nothing else that the rules go by. -/
structure AtStage (b : Builder) (mode : Mode) (stack : List Nat) : Prop where
  settings : ∃ head oldLayout, b.ready.settings = { start with mode, stack, head, oldLayout }
  opens : List.Forall₂ b.arena.Opens stack mode.around
  document_lt : Arena.document < b.arena.size

namespace AtStage

theorem mode_eq (h : b.AtStage mode stack) : b.mode = mode := by
  obtain ⟨_, _, hsettings⟩ := h.settings
  exact (congrArg Builder.mode hsettings :)

theorem stack_eq (h : b.AtStage mode stack) : b.stack = stack := by
  obtain ⟨_, _, hsettings⟩ := h.settings
  exact (congrArg Builder.stack hsettings :)

theorem formatting_eq (h : b.AtStage mode stack) : b.formatting = [] := by
  obtain ⟨_, _, hsettings⟩ := h.settings
  exact (congrArg Builder.formatting hsettings :)

theorem form_eq (h : b.AtStage mode stack) : b.form = none := by
  obtain ⟨_, _, hsettings⟩ := h.settings
  exact (congrArg Builder.form hsettings :)

theorem fosters_eq (h : b.AtStage mode stack) : b.fosters = false := by
  obtain ⟨_, _, hsettings⟩ := h.settings
  exact (congrArg Builder.fosters hsettings :)

theorem ready (h : b.AtStage mode stack) : b.ready.AtStage mode stack := ⟨h.settings, h.opens, h.document_lt⟩

theorem stack_eq_nil (h : b.AtStage mode stack) (hnil : mode.around = []) : stack = [] := by
  have hopens := h.opens
  rw [hnil] at hopens
  exact List.forall₂_nil_right_iff.1 hopens

/-- Where no element is open, nodes go into the document. -/
theorem current_eq_document (h : b.AtStage mode stack) (hnil : mode.around = []) : b.current = Arena.document := by
  rw [current, h.stack_eq, h.stack_eq_nil hnil]
  rfl

/-- The elements around the place. -/
theorem stands (h : b.AtStage mode stack) (hne : mode.around ≠ []) : b.Stands mode.around :=
  ⟨by rw [h.stack_eq]; exact h.opens, hne, h.fosters_eq⟩

/-- What comes next is ordinary markup. -/
theorem isForeign_eq_false (h : b.AtStage mode stack) (piece : Piece) : b.isForeign piece = false := by
  by_cases hne : mode.around = []
  · unfold isForeign
    dsimp only
    rw [h.stack_eq, h.stack_eq_nil hne]
    rfl
  · exact (h.stands hne).isForeign_eq_false piece

/-- The place is one in the page. -/
theorem current_lt (h : b.AtStage mode stack) : b.current < b.arena.size := by
  by_cases hne : mode.around = []
  · exact h.current_eq_document hne ▸ h.document_lt
  · exact (h.stands hne).current_lt

/-- Nodes that are planted leave the stage as it is. -/
theorem of_keeps (h : b.AtStage mode stack) (hsettings : b'.ready.settings = b.ready.settings)
    (hkeeps : Arena.Keeps p b.arena b'.arena) : b'.AtStage mode stack where
  settings := by
    obtain ⟨head, oldLayout, heq⟩ := h.settings
    exact ⟨head, oldLayout, hsettings.trans heq⟩
  opens := h.opens.imp fun _ _ hopens => hopens.of_keeps hkeeps
  document_lt := Nat.lt_of_lt_of_le h.document_lt hkeeps.size

/-- A piece that the rule of the mode settles. -/
theorem accept_of_settled (h : b.AtStage mode stack) {piece : Piece} (hrule : b.rule mode piece = .settled b') :
    b.accept piece = b' :=
  Builder.accept_of_settled (h.isForeign_eq_false piece) (by rw [h.mode_eq, hrule])

/-- A new element that is opened leads to another stage. -/
theorem opened (h : b.AtStage mode stack) (haround : mode'.around = n :: mode.around)
    (hsettings : ∃ head oldLayout, b'.settings = { start with mode := mode', stack := b.arena.size :: stack, head, oldLayout })
    (harena : b'.arena = (b.grown n attrs).arena) : b'.AtStage mode' (b.arena.size :: stack) where
  settings := by
    obtain ⟨head, oldLayout, heq⟩ := hsettings
    exact ⟨head, oldLayout, (congrArg Builder.ready heq :)⟩
  opens := by
    have hkeeps : Arena.Keeps b.current b.arena (b.grown n attrs).arena := Arena.keeps_plant h.current_lt _
    rw [haround, harena]
    exact .cons (.plant h.current_lt n attrs) (h.opens.imp fun _ _ hopens => hopens.of_keeps hkeeps)
  document_lt := by
    rw [harena, grown, Arena.size_plant]
    exact Nat.lt_succ_of_lt h.document_lt

/-- An element that is opened and closed by its tags is read back where what is inside is. `Inside` says what the page is when that
was read. -/
theorem reads_held (h : b.AtStage mode stack) (hname : n.isTagName = true) (hvoid : (ElementName.html n).isVoid = false)
    (hraw : (ElementName.html n).isRaw = false) (hattrs : attrs.isPlain = true) (mode' : Mode)
    (haround : mode'.around = n :: mode.around) {b₁ : Builder}
    (haccept : b.ready.accept (.start (startTagOf n attrs)) = b₁) (harena : b₁.arena = (b.grown n attrs).arena)
    (hsettings : ∃ head oldLayout, b₁.settings = { start with mode := mode', stack := b.arena.size :: stack, head, oldLayout })
    {children : List Node} {After : Builder → Prop} (Inside : Builder → Prop)
    (hinside : ∀ rest, Token.StartsMarkup rest → b₁.AtStage mode' (b.arena.size :: stack) → (∀ m, b₁.Admits b₁.current m) →
      ∃ b₂, Reads b₁ .ordinary (Node.writtenAllBefore rest .outside children) b₂ .ordinary rest ∧ Inside b₂ ∧
        b₂.arena = b₁.arena.plantAll b₁.current children)
    (hclose : ∀ b₂, Inside b₂ → ∃ b₃, b₂.ready.accept (.close n) = b₃ ∧ b₃.reading = none ∧ b₃.arena = b₂.arena ∧ After b₃) :
    b.ReadsInto b.current (.element (.html n) attrs children) After := by
  intro rest _ _
  have hstage := h.opened haround hsettings harena
  obtain ⟨head, oldLayout, hsettings⟩ := hsettings
  have hcurrent : b₁.current = b.arena.size := by
    rw [current, hstage.stack_eq]
    rfl
  have hadmits (m : Node) : b₁.Admits b₁.current m := by
    rw [hcurrent]
    refine admits_of_grown h.current_lt harena fun hdrops => ?_
    rw [show b₁.newlineDrops = false from (congrArg Builder.newlineDrops hsettings :)] at hdrops
    cases hdrops
  obtain ⟨b₂, hread, hb₂, harena₂⟩ := hinside _ (Token.startsMarkup_endTagText hname rest) hstage hadmits
  obtain ⟨b₃, haccept₃, hnone₃, harena₃, hb₃⟩ := hclose b₂ hb₂
  have hstart := reads_start_of_accept hname hattrs haccept (congrArg Builder.reading hsettings :)
  refine ⟨b₃, reads_element hvoid hraw hstart hread (reads_end_of_accept hname haccept₃ hnone₃ rest), hb₃, ?_⟩
  rw [harena₃, harena₂, hcurrent, harena]
  rfl

/-- The innermost element is closed, and the page goes on to another mode. -/
theorem closed {i : Nat} (h : b.AtStage mode (i :: stack)) (haround : mode.around = n :: mode'.around) :
    ({ b.ready.pop with mode := mode' } : Builder).AtStage mode' stack where
  settings := by
    obtain ⟨head, oldLayout, hsettings⟩ := h.settings
    have hclosed : ({ b.ready.pop with mode := mode' } : Builder).ready.settings =
        { b.ready.settings with mode := mode', stack := b.stack.drop 1 } := rfl
    exact ⟨head, oldLayout, by rw [hclosed, hsettings, h.stack_eq]; rfl⟩
  opens := by
    have hopens := h.opens
    rw [haround] at hopens
    exact (List.forall₂_cons.1 hopens).2
  document_lt := h.document_lt

/-- The page goes on to another mode inside the same elements. -/
theorem passed (h : b.AtStage mode stack) (haround : mode'.around = mode.around) (oldLayout : Bool)
    (hsettings : b'.ready.settings = { b.ready.settings with mode := mode', oldLayout })
    (hkeeps : Arena.Keeps p b.arena b'.arena) : b'.AtStage mode' stack where
  settings := by
    obtain ⟨head, _, heq⟩ := h.settings
    exact ⟨head, oldLayout, by rw [hsettings, heq]⟩
  opens := by
    rw [haround]
    exact h.opens.imp fun _ _ hopens => hopens.of_keeps hkeeps
  document_lt := Nat.lt_of_lt_of_le h.document_lt hkeeps.size

/-! ## The head -/

/-- Blank text in the head and right after it is taken in. -/
theorem takesText (h : b.AtStage mode stack) (hmode : mode = .inHead ∨ mode = .afterHead) (hblank : t.all isBlank = true) :
    b.TakesText t := by
  intro b' hfixed hkeeps run hrun
  have hsettings := settings_eq hfixed
  have hne : mode.around ≠ [] := by rcases hmode with rfl | rfl <;> exact List.cons_ne_nil _ _
  have hstands : b'.Stands mode.around := (h.stands hne).of_keeps hsettings hkeeps
  have hspace : pieceOf run = .space run := if_pos (List.all_eq_true.2 fun c hc => List.all_eq_true.1 hblank c (hrun c hc))
  have hrule : b'.rule b'.mode (.space run) = .settled (b'.addText run) := by
    rw [show b'.mode = mode from (Builder.mode_eq hsettings).trans h.mode_eq]
    rcases hmode with rfl | rfl <;> rfl
  rw [hspace, Builder.accept_of_settled (hstands.isForeign_eq_false _) hrule, hstands.addText_eq, current_eq hsettings]
  exact ⟨hfixed, rfl⟩

/-- Blank text is read back there. -/
theorem readsBack_blank (h : b.AtStage mode stack) (hmode : mode = .inHead ∨ mode = .afterHead) (hblank : Node.isPlainBlank t = true)
    (hadmits : b.Admits b.current (.text t)) : b.ReadsBack b.current (.text t) := by
  simp only [Node.isPlainBlank, Bool.and_eq_true, Bool.not_eq_true', List.isEmpty_eq_false_iff] at hblank
  have hne : mode.around ≠ [] := by rcases hmode with rfl | rfl <;> exact List.cons_ne_nil _ _
  exact readsBack_text (h.stands hne).current_lt (h.ready.takesText hmode hblank.1.2) hblank.2 hblank.1.1 hadmits

end AtStage

/-- What the start tag of an element of the head does there is what its rule in the body says. -/
theorem inHead_start_eq (b : Builder) {tag : StartTag} (hname : tag.name.isOneOf ("noscript" :: headTags) = true)
    (hrule : startRule tag.name ≠ .barred) : b.inHead (.start tag) = .settled (b.openBy tag (startRule tag.name)) := by
  have hhtml : tag.name ≠ "html".toList := by
    intro heq
    rw [heq] at hname
    cases hname
  by_cases hhead : tag.name.isOneOf headTags = true
  · have hbody : b.startInBody tag = b.inHead (.start tag) := by
      unfold startInBody
      dsimp only
      rw [if_neg hhtml, if_pos hhead]
    exact hbody.symm.trans (startInBody_eq b hrule)
  · obtain ⟨name, attrs, selfClosing⟩ := tag
    obtain rfl : name = "noscript".toList := by
      simp only [Text.isOneOf, List.contains_cons, Bool.or_eq_true, beq_iff_eq] at hname hhead
      exact hname.resolve_right hhead
    rfl

namespace AtStage

/-- What fits in the head is read back there. -/
theorem readsBack_of_fitsHead (h : b.AtStage .inHead stack) {m : Node} (hfits : m.fitsHead = true)
    (hadmits : b.Admits b.current m) : b.ReadsBack b.current m := by
  have hstands : b.Stands _ := h.stands (List.cons_ne_nil _ _)
  cases m with
  | doctype _ => cases hfits
  | comment t =>
    have hready : b.ready.Stands _ := h.ready.stands (List.cons_ne_nil _ _)
    exact readsBack_comment hfits (hready.accept_comment (by rw [h.ready.mode_eq]; rfl) t)
  | text t => exact h.readsBack_blank (.inl rfl) hfits hadmits
  | element name attrs children =>
    simp only [Node.fitsHead, Bool.and_eq_true, beq_iff_eq] at hfits
    obtain ⟨⟨⟨⟨hspace, hname⟩, hattrs⟩, hhead⟩, hkind⟩ := hfits
    obtain ⟨space, n⟩ := name
    dsimp only at hspace hname hhead hkind
    subst hspace
    have hbarred : startRule n ≠ .barred := by
      intro heq
      rw [heq] at hkind
      cases hkind
    have hn : n ≠ "template".toList := by
      rintro rfl
      exact hbarred rfl
    have haccept : b.ready.accept (.start (startTagOf n attrs)) = b.ready.openBy (startTagOf n attrs) (startRule n) :=
      h.ready.accept_of_settled (inHead_start_eq _ hhead hbarred)
    split at hkind
    · rename_i hrule
      obtain ⟨hvoid, hempty⟩ := Bool.and_eq_true _ _ |>.mp hkind
      obtain rfl : children = [] := by simpa using hempty
      have hadd : b.ready.openBy (startTagOf n attrs) .bare = b.ready.grown n attrs :=
        (h.ready.stands (List.cons_ne_nil _ _)).addTag_eq hn hattrs
      rw [hrule, hadd] at haccept
      exact readsBack_closed hname hattrs hvoid (by rw [haccept]; rfl) (by rw [haccept]; rfl)
    · rename_i reading hrule
      intro rest hrest _
      rw [hrule] at haccept
      exact reads_rawElement hstands hname hattrs hkind (haccept ▸ opensText_of_reads hstands hn hattrs rfl) hrest
    · cases hkind

/-- Nodes that fit in the head are read back there one after the other. -/
theorem reads_inHead (h : b.AtStage .inHead stack) {ms : List Node} (hfits : ∀ m ∈ ms, m.fitsHead = true)
    (hapart : Node.apart ms = true) (hfirst : ∀ m ∈ ms.head?, b.Admits b.current m) (hrest : Token.StartsMarkup rest) :
    ∃ b', Reads b .ordinary (Node.writtenAllBefore rest .outside ms) b' .ordinary rest ∧ b'.AtStage .inHead stack ∧
      b'.arena = b.arena.plantAll b.current ms := by
  have hcurrent {c : Builder} (hc : c.AtStage .inHead stack) : c.current = b.current := by
    rw [current, current, hc.stack_eq, h.stack_eq]
  let Place (ms : List Node) (c : Builder) : Prop := (∀ m ∈ ms, m.fitsHead = true) ∧ c.AtStage .inHead stack
  have hstep {m : Node} {ms : List Node} {c : Builder} (hc : Place (m :: ms) c) (hadmits : c.Admits b.current m) :
      c.ReadsInto b.current m fun c' => Place ms c' ∧ c'.newlineDrops = false := by
    obtain ⟨hfits, hstage⟩ := hc
    obtain ⟨hm, hms⟩ := List.forall_mem_cons.1 hfits
    rw [← hcurrent hstage] at hadmits ⊢
    exact (hstage.readsBack_of_fitsHead hm hadmits).imp hstage.current_lt fun c' hsettings hkeeps =>
      ⟨⟨hms, hstage.of_keeps (congrArg Builder.ready hsettings :) hkeeps⟩, (congrArg Builder.newlineDrops hsettings :)⟩
  obtain ⟨b', hread, ⟨-, hstage⟩, harena⟩ := reads_all Place (fun hc => hcurrent hc.2 ▸ hc.2.current_lt) hstep
    (fun m hm => Node.startsKept_of_fitsHead (hfits m hm)) hapart ⟨hfits, h⟩ hfirst hrest.head_ne_mark fun _ => hrest
  exact ⟨b', hread, hstage, harena⟩

/-- The head is read back with what is in it. -/
theorem reads_head (h : b.AtStage .beforeHead stack) (hattrs : attrs.isPlain = true) {children : List Node}
    (hfits : children.all Node.fitsHead = true) (hapart : Node.apart children = true) :
    b.ReadsInto b.current (.element (.html "head") attrs children) fun b' =>
      b'.AtStage .afterHead stack ∧ b'.newlineDrops = false := by
  have hopen : b.ready.openTag (startTagOf "head" attrs) = (b.ready.grown "head" attrs).push b.arena.size :=
    (h.ready.stands (List.cons_ne_nil _ _)).openTag_eq (by decide) hattrs
  have hrule : b.ready.rule .beforeHead (.start (startTagOf "head" attrs)) =
      .settled { b.ready.openTag (startTagOf "head" attrs) with
        head := some (b.ready.openTag (startTagOf "head" attrs)).current, mode := .inHead } := rfl
  rw [hopen] at hrule
  obtain ⟨head, oldLayout, hsettings⟩ := h.settings
  refine h.reads_held (by decide) rfl rfl hattrs .inHead rfl (h.ready.accept_of_settled hrule) rfl
    ⟨some b.arena.size, oldLayout, ?_⟩ (·.AtStage .inHead (b.arena.size :: stack)) (fun rest hrest hstage hadmits => ?_)
    fun b₂ hstage => ?_
  · show ({ b.ready.settings with mode := .inHead, stack := b.arena.size :: b.stack, head := some b.arena.size } : Builder) = _
    rw [hsettings, h.stack_eq]
  · exact hstage.reads_inHead (List.all_eq_true.1 hfits) hapart (fun m _ => hadmits m) hrest
  · exact ⟨_, hstage.ready.accept_of_settled rfl, rfl, rfl, hstage.closed rfl, rfl⟩

/-! ## The body -/

/-- Right after its start tag the body is a place of the body. -/
theorem inBody (h : b.AtStage .inBody stack) : b.InBody ["body", "html"] where
  toStands := h.stands (List.cons_ne_nil _ _)
  mode := h.mode_eq
  formatting := by
    have hformats : openFormats b.stack ["body", "html"] = [] := by
      refine List.filter_eq_nil_iff.2 fun e he => ?_
      have hname := (List.of_mem_zip (a := e.1) (b := e.2) he).2
      simp only [List.mem_cons, List.not_mem_nil, or_false] at hname
      rcases hname with hname | hname <;> rw [hname] <;> decide
    rw [h.formatting_eq, hformats]
    rfl
  form := by
    rw [h.form_eq]
    rfl
  template := rfl

/-- The body is read back with what is in it. -/
theorem reads_body (h : b.AtStage .afterHead stack) (hattrs : attrs.isPlain = true) {children : List Node}
    (hfits : Node.fitsAll ["body", "html"] children = true) :
    b.ReadsInto b.current (.element (.html "body") attrs children) fun b' =>
      b'.AtStage .afterBody (b.arena.size :: stack) ∧ b'.newlineDrops = false := by
  obtain ⟨hinside, hapart⟩ := Node.fitsAll_iff.1 hfits
  have hopen : b.ready.openTag (startTagOf "body" attrs) = (b.ready.grown "body" attrs).push b.arena.size :=
    (h.ready.stands (List.cons_ne_nil _ _)).openTag_eq (by decide) hattrs
  have hrule : b.ready.rule .afterHead (.start (startTagOf "body" attrs)) =
      .settled { b.ready.openTag (startTagOf "body" attrs) with framesAllowed := false, mode := .inBody } := rfl
  rw [hopen] at hrule
  obtain ⟨head, oldLayout, hsettings⟩ := h.settings
  refine h.reads_held (by decide) rfl rfl hattrs .inBody rfl (h.ready.accept_of_settled hrule) rfl ⟨head, oldLayout, ?_⟩
    (·.AtStage .inBody (b.arena.size :: stack)) (fun rest hrest hstage hadmits => ?_) fun b₂ hstage => ?_
  · show ({ b.ready.settings with mode := .inBody, stack := b.arena.size :: b.stack } : Builder) = _
    rw [hsettings, h.stack_eq]
  · obtain ⟨b₂, hread, -, -, hsettings₂, harena₂⟩ := hstage.inBody.reads_inside
      (fun m hm => ⟨Node.startsKept_of_fits (hinside m hm), fun c hc => hc.readsBack_of_fits m (hinside m hm)⟩) hapart
      (fun m _ => hadmits m) hrest.head_ne_mark fun _ => hrest
    exact ⟨b₂, hread, hstage.of_keeps hsettings₂ (harena₂ ▸ Arena.keeps_plantAll children _ _ hstage.current_lt), harena₂⟩
  · have hbody : b₂.ready.scopeHas "body" = true := hstage.ready.inBody.inScope_eq _ _
    have hrule : b₂.ready.rule .inBody (.close "body") =
        .settled (if b₂.ready.scopeHas "body" then { b₂.ready with mode := .afterBody } else b₂.ready) := rfl
    rw [hbody, if_pos rfl] at hrule
    exact ⟨_, hstage.ready.accept_of_settled hrule, rfl, rfl, hstage.passed rfl _ rfl (.refl 0 _), rfl⟩

/-! ## The outermost element -/

/-- The elements that are open are in the page. -/
theorem lt_size_of_mem (h : b.AtStage mode stack) {i : Nat} (hi : i ∈ stack) : i < b.arena.size := by
  have hopens := h.opens
  generalize mode.around = names at hopens
  clear h
  induction hopens with
  | nil => cases hi
  | cons hopen _ ih =>
    rcases List.mem_cons.1 hi with rfl | hi
    · exact hopen.lt_size
    · exact ih hi

/-- Where the outermost element is the only one that is open, it is the place. -/
theorem current_eq_of_getLast? {root : Nat} (h : b.AtStage mode stack) (haround : mode.around = ["html"])
    (hroot : stack.getLast? = some root) : b.current = root := by
  have hopens := h.opens
  rw [haround] at hopens
  obtain ⟨i, below, -, hbelow, rfl⟩ := List.forall₂_cons_right_iff.1 hopens
  obtain rfl := List.forall₂_nil_right_iff.1 hbelow
  rw [current, h.stack_eq]
  exact Option.some.inj hroot

/-- A node directly in the outermost element is read back, and leads to the next mode. -/
theorem reads_nextInRoot {root : Nat} (h : b.AtStage mode stack) (hroot : stack.getLast? = some root) {m : Node}
    (hnext : Node.nextInRoot mode m = some mode') (hadmits : b.Admits root m) :
    b.ReadsInto root m fun b' =>
      (∃ stack', b'.AtStage mode' stack' ∧ stack'.getLast? = some root) ∧ b'.newlineDrops = false := by
  have hlt := h.lt_size_of_mem (List.mem_of_getLast? hroot)
  have hback (hread : b.ReadsBack root m) : b.ReadsInto root m fun b' =>
      (∃ stack', b'.AtStage mode stack' ∧ stack'.getLast? = some root) ∧ b'.newlineDrops = false :=
    hread.imp hlt fun b' hsettings hkeeps => ⟨⟨stack, h.of_keeps (congrArg Builder.ready hsettings :) hkeeps, hroot⟩,
      (congrArg Builder.newlineDrops hsettings :)⟩
  unfold Node.nextInRoot at hnext
  split at hnext
  · -- the head
    split_ifs at hnext with hhead
    obtain ⟨rfl, hattrs, hfits, hapart⟩ := hhead
    obtain rfl := Option.some.inj hnext
    obtain rfl := h.current_eq_of_getLast? rfl hroot
    exact (h.reads_head hattrs hfits hapart).imp hlt fun b' hb' _ => ⟨⟨stack, hb'.1, hroot⟩, hb'.2⟩
  · -- the body
    split_ifs at hnext with hbody
    obtain ⟨rfl, hattrs, hfits⟩ := hbody
    obtain rfl := Option.some.inj hnext
    have hroot' : (b.arena.size :: stack).getLast? = some root := by
      rw [List.getLast?_cons, hroot]
      rfl
    obtain rfl := h.current_eq_of_getLast? rfl hroot
    exact (h.reads_body hattrs hfits).imp hlt fun b' hb' _ => ⟨⟨_, hb'.1, hroot'⟩, hb'.2⟩
  · -- text
    split_ifs at hnext with hblank
    obtain rfl := Option.some.inj hnext
    obtain rfl := h.current_eq_of_getLast? rfl hroot
    exact hback (h.readsBack_blank (.inr rfl) hblank hadmits)
  · -- comments
    split_ifs at hnext with hcomment
    obtain ⟨hmode, hplain⟩ := hcomment
    obtain rfl := Option.some.inj hnext
    refine hback (readsBack_comment hplain ?_)
    simp only [List.mem_cons, List.not_mem_nil, or_false] at hmode
    rcases hmode with rfl | rfl | rfl
    · obtain rfl := h.current_eq_of_getLast? rfl hroot
      exact (h.ready.stands (List.cons_ne_nil _ _)).accept_comment (by rw [h.ready.mode_eq]; rfl) _
    · obtain rfl := h.current_eq_of_getLast? rfl hroot
      exact (h.ready.stands (List.cons_ne_nil _ _)).accept_comment (by rw [h.ready.mode_eq]; rfl) _
    · have hlast : b.ready.root = root := by
        rw [Builder.root, h.ready.stack_eq, hroot]
        rfl
      subst hlast
      exact h.ready.accept_of_settled rfl
  · cases hnext

/-- Nodes directly in the outermost element that lead from one mode to another are read back one after the other. -/
theorem reads_inRoot {root : Nat} (h : b.AtStage mode stack) (hroot : stack.getLast? = some root) {ms : List Node}
    (hleads : ms.foldlM Node.nextInRoot mode = some mode') (hapart : Node.apart ms = true)
    (hfirst : ∀ m ∈ ms.head?, b.Admits root m) (hrest : Token.StartsMarkup rest) :
    ∃ b', Reads b .ordinary (Node.writtenAllBefore rest .outside ms) b' .ordinary rest ∧
      (∃ stack', b'.AtStage mode' stack' ∧ stack'.getLast? = some root) ∧ b'.arena = b.arena.plantAll root ms := by
  let Place (ms : List Node) (c : Builder) : Prop :=
    ∃ mode stack, ms.foldlM Node.nextInRoot mode = some mode' ∧ c.AtStage mode stack ∧ stack.getLast? = some root
  have hsize {ms : List Node} {c : Builder} (hc : Place ms c) : root < c.arena.size := by
    obtain ⟨_, _, -, hstage, hroot⟩ := hc
    exact hstage.lt_size_of_mem (List.mem_of_getLast? hroot)
  have hstep {m : Node} {ms : List Node} {c : Builder} (hc : Place (m :: ms) c) (hadmits : c.Admits root m) :
      c.ReadsInto root m fun c' => Place ms c' ∧ c'.newlineDrops = false := by
    have hlt := hsize hc
    obtain ⟨mode, stack, hleads, hstage, hroot⟩ := hc
    obtain ⟨next, hnext, hleads⟩ := Node.foldlM_cons_eq_some.1 hleads
    exact (hstage.reads_nextInRoot hroot hnext hadmits).imp hlt fun c' ⟨⟨stack', hstage', hroot'⟩, hdrops⟩ _ =>
      ⟨⟨next, stack', hleads, hstage', hroot'⟩, hdrops⟩
  have hkept (m : Node) (hm : m ∈ ms) : m.startsKept = true := by
    obtain ⟨_, _, hnext⟩ := Node.exists_next_of_leads hleads m hm
    exact Node.startsKept_of_nextInRoot hnext
  obtain ⟨b', hread, ⟨last, stack', hleads', hstage', hroot'⟩, harena⟩ := reads_all Place hsize hstep hkept hapart
    ⟨mode, stack, hleads, h, hroot⟩ hfirst hrest.head_ne_mark fun _ => hrest
  obtain rfl := Option.some.inj hleads'
  exact ⟨b', hread, ⟨stack', hstage', hroot'⟩, harena⟩

/-! ## The page -/

/-- The outermost element is opened. -/
theorem openRoot_eq (h : b.AtStage mode stack) (haround : mode.around = []) (hattrs : attrs.isPlain = true) :
    b.openRoot (startTagOf n attrs).attrs =
      ({ b with arena := b.arena.plant b.current (.element (.html "html") attrs none) }).push b.arena.size := by
  have hname : ElementName.html "html" ≠ ⟨.html, "template"⟩ := by decide
  rw [openRoot, Arena.addElement, if_neg hname, startTagOf_attrs hattrs, h.current_eq_document haround]
  rfl

/-- The start tag of the outermost element opens it. -/
theorem accept_html (h : b.AtStage mode stack) (hmode : mode ∈ [.initial, .beforeHtml]) (attrs : Attrs) :
    ∃ oldLayout, b.accept (.start (startTagOf "html" attrs)) =
      { b.openRoot (startTagOf "html" attrs).attrs with mode := .beforeHead, oldLayout } := by
  simp only [List.mem_cons, List.not_mem_nil, or_false] at hmode
  rcases hmode with rfl | rfl
  · have hnext : ({ b with oldLayout := true, mode := .beforeHtml } : Builder).AtStage .beforeHtml stack :=
      h.passed rfl true rfl (.refl 0 _)
    have hagain : b.rule b.mode (.start (startTagOf "html" attrs)) =
        .again { b with oldLayout := true, mode := .beforeHtml } := by
      rw [h.mode_eq]
      rfl
    exact ⟨true, accept_of_again (h.isForeign_eq_false _) hagain (hnext.isForeign_eq_false _) rfl⟩
  · exact ⟨b.oldLayout, h.accept_of_settled rfl⟩

/-- The outermost element is read back with what is in it. -/
theorem reads_html (h : b.AtStage mode stack) (hmode : mode ∈ [.initial, .beforeHtml]) (hattrs : attrs.isPlain = true)
    {children : List Node} (hleads : children.foldlM Node.nextInRoot .beforeHead = some .afterBody)
    (hapart : Node.apart children = true) :
    b.ReadsInto b.current (.element (.html "html") attrs children) fun b' =>
      (∃ stack', b'.AtStage .afterAfterBody stack') ∧ b'.newlineDrops = false := by
  have haround := Mode.around_eq_nil hmode
  have hstack : stack = [] := h.stack_eq_nil haround
  obtain ⟨head, _, hsettings⟩ := h.settings
  obtain ⟨oldLayout, haccept⟩ := h.ready.accept_html hmode attrs
  rw [h.ready.openRoot_eq haround hattrs] at haccept
  refine h.reads_held (by decide) rfl rfl hattrs .beforeHead (by rw [haround]; rfl) haccept rfl ⟨head, oldLayout, ?_⟩
    (fun b₂ => ∃ stack', b₂.AtStage .afterBody stack') (fun rest hrest hstage hadmits => ?_) fun b₂ ⟨stack', hstage⟩ => ?_
  · show ({ b.ready.settings with mode := .beforeHead, stack := b.arena.size :: b.stack, oldLayout } : Builder) = _
    rw [hsettings, h.stack_eq]
  · have hroot : (b.arena.size :: stack).getLast? = some b.arena.size := by
      rw [hstack]
      rfl
    obtain ⟨b₂, hread, ⟨stack', hstage', -⟩, harena⟩ :=
      hstage.reads_inRoot hroot hleads hapart (fun m _ => hadmits m) hrest
    exact ⟨b₂, hread, ⟨stack', hstage'⟩, harena⟩
  · exact ⟨_, hstage.ready.accept_of_settled rfl, rfl, rfl, ⟨stack', hstage.passed rfl _ rfl (.refl 0 _)⟩, rfl⟩

/-- A doctype at the start is read back. -/
theorem reads_doctype (h : b.AtStage .initial stack) {name : Text} (hname : name.isDoctypeName = true) :
    b.ReadsInto Arena.document (.doctype name) fun b' => b'.AtStage .beforeHtml stack ∧ b'.newlineDrops = false := by
  intro rest _ _
  have hinitial : b.ready.mode = .initial := h.mode_eq
  have haccept : b.acceptToken (.doctype ⟨some name, none, none, false⟩) =
      { b.ready with
        arena := b.arena.plant Arena.document (.doctype name)
        oldLayout := Doctype.asksForOldLayout ⟨some name, none, none, false⟩, mode := .beforeHtml } := if_pos hinitial
  have hread : Reads b .ordinary ("<!DOCTYPE ".toList ++ name ++ (">".toList ++ rest))
      (b.acceptToken (.doctype ⟨some name, none, none, false⟩))
      ((b.acceptToken (.doctype ⟨some name, none, none, false⟩)).reading.getD .ordinary) rest :=
    .of_next _ (by simp) (by simp; omega) fun fuel _ => Token.next_doctype hname rest
  rw [haccept] at hread
  exact ⟨_, hread, ⟨h.passed rfl _ rfl (Arena.keeps_plant h.document_lt _), rfl⟩, rfl⟩

/-- An outermost node is read back, and leads to the next mode. -/
theorem reads_nextInPage (h : b.AtStage mode stack) {m : Node} (hnext : Node.nextInPage mode m = some mode') :
    b.ReadsInto Arena.document m fun b' => (∃ stack', b'.AtStage mode' stack') ∧ b'.newlineDrops = false := by
  unfold Node.nextInPage at hnext
  split at hnext
  · -- a doctype
    split_ifs at hnext with hname
    obtain rfl := Option.some.inj hnext
    exact (h.reads_doctype hname).imp h.document_lt fun b' hb' _ => ⟨⟨stack, hb'.1⟩, hb'.2⟩
  · -- the outermost element
    split_ifs at hnext with hhtml
    obtain ⟨hmode, rfl, hattrs, hleads, hapart⟩ := hhtml
    obtain rfl := Option.some.inj hnext
    exact h.current_eq_document (Mode.around_eq_nil hmode) ▸ h.reads_html hmode hattrs hleads hapart
  · -- a comment
    split_ifs at hnext with hcomment
    obtain ⟨hmode, hplain⟩ := hcomment
    obtain rfl := Option.some.inj hnext
    simp only [List.mem_cons, List.not_mem_nil, or_false] at hmode
    refine (readsBack_comment hplain ?_).imp h.document_lt fun b' hsettings hkeeps =>
      ⟨⟨stack, h.of_keeps (congrArg Builder.ready hsettings :) hkeeps⟩, (congrArg Builder.newlineDrops hsettings :)⟩
    rcases hmode with rfl | rfl | rfl <;> exact h.ready.accept_of_settled rfl
  · cases hnext

/-- Nodes that lead from one mode to another are read back one after the other. -/
theorem reads_page (h : b.AtStage mode stack) {ms : List Node} (hleads : ms.foldlM Node.nextInPage mode = some mode')
    (hfirst : ∀ m ∈ ms.head?, b.Admits Arena.document m) :
    ∃ b' stack', Reads b .ordinary (Node.writtenAll .outside ms) b' .ordinary [] ∧ b'.AtStage mode' stack' ∧
      b'.arena = b.arena.plantAll Arena.document ms := by
  let Place (ms : List Node) (c : Builder) : Prop :=
    ∃ mode stack, ms.foldlM Node.nextInPage mode = some mode' ∧ c.AtStage mode stack
  have hsize {ms : List Node} {c : Builder} (hc : Place ms c) : Arena.document < c.arena.size := by
    obtain ⟨_, _, -, hstage⟩ := hc
    exact hstage.document_lt
  have hstep {m : Node} {ms : List Node} {c : Builder} (hc : Place (m :: ms) c) (_ : c.Admits Arena.document m) :
      c.ReadsInto Arena.document m fun c' => Place ms c' ∧ c'.newlineDrops = false := by
    have hlt := hsize hc
    obtain ⟨mode, stack, hleads, hstage⟩ := hc
    obtain ⟨next, hnext, hleads⟩ := Node.foldlM_cons_eq_some.1 hleads
    exact (hstage.reads_nextInPage hnext).imp hlt fun c' ⟨⟨stack', hstage'⟩, hdrops⟩ _ =>
      ⟨⟨next, stack', hleads, hstage'⟩, hdrops⟩
  have hmarkup (m : Node) (hm : m ∈ ms) : m.startsKept = true ∧ m.isText = false := by
    obtain ⟨_, _, hnext⟩ := Node.exists_next_of_leads hleads m hm
    exact Node.markup_of_nextInPage hnext
  have hlast : ms.getLast?.any Node.isText = true → Token.StartsMarkup [] := by
    intro htext
    obtain ⟨m, hm, htext⟩ := (Option.any_eq_true _ _).1 htext
    rw [(hmarkup m (List.mem_of_getLast? hm)).2] at htext
    cases htext
  have hend : ([] : Text).head? ≠ some '\ufeff' := nofun
  obtain ⟨b', hread, ⟨last, stack', hleads', hstage'⟩, harena⟩ := reads_all Place hsize hstep (fun m hm => (hmarkup m hm).1)
    (Node.apart_of_forall fun m hm => (hmarkup m hm).2) ⟨mode, stack, hleads, h⟩ hfirst hend hlast
  obtain rfl := Option.some.inj hleads'
  exact ⟨b', stack', hread, hstage', harena⟩

end AtStage

/-- The start of a page. -/
theorem atStage_start : start.AtStage .initial [] := ⟨⟨none, false, rfl⟩, .nil, by decide⟩

end Builder

/-- A plain document is read from the way it is written. -/
theorem Document.nodes_parse_toHtml (d : Document) (h : d.isPlain = true) : (parse d.toHtml).nodes = d.nodes := by
  have hleads : d.nodes.foldlM Node.nextInPage .initial = some .afterAfterBody := by simpa [isPlain] using h
  -- the whole text is read
  obtain ⟨b, stack, hread, hstage, harena⟩ := Builder.atStage_start.reads_page hleads fun _ _ => ⟨fun _ => rfl, nofun⟩
  have hmark : Token.withoutByteOrderMark d.toHtml = d.toHtml := by
    refine Token.withoutByteOrderMark_eq_self ?_
    rw [toHtml]
    cases hnodes : d.nodes with
    | nil => nofun
    | cons m ms =>
      obtain ⟨_, _, hnext⟩ := Node.exists_next_of_leads hleads m (by rw [hnodes]; exact List.mem_cons_self)
      exact Node.head_writtenBefore (Node.markup_of_nextInPage hnext).1 _
  obtain ⟨fuel, hfuel, hall⟩ := hread (d.toHtml.length + 2) (Nat.lt_succ_of_lt (Nat.lt_succ_self _))
  -- and after it the page is over
  obtain ⟨fuel, rfl⟩ : ∃ k, fuel = k + 1 := Nat.exists_eq_succ_of_ne_zero (Nat.ne_of_gt hfuel)
  have hdone : Builder.readAll (fuel + 1) b .ordinary [] = b.ready := hstage.ready.accept_of_settled rfl
  have harena : (Builder.readAll (d.toHtml.length + 2) .start .ordinary d.toHtml).arena =
      Arena.empty.plantAll Arena.document d.nodes := by
    rw [show Builder.readAll (d.toHtml.length + 2) .start .ordinary d.toHtml = b.ready from hall.trans hdone]
    exact harena
  have hpage : readPage d.toHtml = (Arena.empty.plantAll Arena.document d.nodes).toParsed := by
    unfold readPage
    dsimp only
    rw [hmark, harena]
  rw [parse, hpage]
  exact Arena.inlinedAll_toParsed d.nodes

end LocalePages
