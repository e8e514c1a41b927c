import LocalePages.Proofs.ReadingOn

/-!
# Tags of plain elements

In the body all formatting that is in force belongs to elements around the place (`Builder.InBody`). There the start tag of an element
that can be opened does nothing but to open it (`Builder.InBody.openBy_eq`), and its end tag nothing but to close it
(`Builder.closeBy_eq`).
-/

namespace LocalePages

/-- Whether a rule is one for formatting. -/
def StartRule.isFormatting : StartRule → Bool
  | link | formatting | unbroken => true
  | _ => false

/-- An element is formatting exactly when its end tag closes formatting. -/
theorem StartRule.isFormatting_of_endsBy {rule : StartRule} {e : EndRule} (h : rule.endsBy e = true) :
    rule.isFormatting = (e == .formatting) := by
  cases rule <;> cases e <;> first | rfl | cases h

/-- An element is a form exactly when its end tag closes forms. -/
theorem StartRule.eq_form_iff_of_endsBy {rule : StartRule} {e : EndRule} (h : rule.endsBy e = true) :
    rule = .form ↔ e = .form := by
  cases rule <;> cases e <;> first | (simp; done) | cases h

/-- The element of an entry of the list of formatting, and its name. -/
def Formatting.key? : Formatting → Option (Nat × Text)
  | border => none
  | element i tag => some (i, tag.name)

namespace Builder

variable {b b' : Builder} {outer below : List Text} {n m : Text} {attrs : Attrs} {rule : StartRule} {i : Nat}

/-- The open elements that are formatting. -/
def openFormats (stack : List Nat) (outer : List Text) : List (Nat × Text) :=
  (stack.zip outer).filter fun e => (startRule e.2).isFormatting

/-- Whether a page stands at a place of the body, and the formatting in force is that of the elements around it. -/
structure InBody (b : Builder) (outer : List Text) : Prop extends b.Stands outer where
  mode : b.mode = .inBody
  formatting : b.formatting.map Formatting.key? = (openFormats b.stack outer).map some
  form : b.form.isSome = outer.contains "form"
  template : outer.contains "template" = false

namespace InBody

theorem of_keeps (h : b.InBody outer) (hsettings : b'.settings = b.settings) (hkeeps : Arena.Keeps i b.arena b'.arena) :
    b'.InBody outer where
  toStands := h.toStands.of_keeps hsettings hkeeps
  mode := (mode_eq hsettings).trans h.mode
  formatting := by rw [formatting_eq hsettings, stack_eq hsettings, h.formatting]
  form := by rw [form_eq hsettings, h.form]
  template := h.template

theorem ready (h : b.InBody outer) : b.ready.InBody outer := { h with toStands := h.toStands.congr rfl rfl rfl }

/-! ## Formatting -/

/-- The formatting in force is open. -/
theorem isSettled_of_mem (h : b.InBody outer) {e : Formatting} (he : e ∈ b.formatting) : b.isSettled e = true := by
  have hkey : e.key? ∈ (openFormats b.stack outer).map some := h.formatting ▸ List.mem_map_of_mem he
  obtain ⟨⟨i, m⟩, hin, hkey⟩ := List.mem_map.1 hkey
  cases e with
  | border => rfl
  | element j tag =>
    obtain ⟨rfl, -⟩ : i = j ∧ m = tag.name := by simpa [Formatting.key?] using hkey
    have hmem : i ∈ b.stack := (List.of_mem_zip (List.mem_filter.1 hin).1).1
    simpa [isSettled] using hmem

/-- No formatting has to be opened again. -/
theorem reopenFormatting_eq (h : b.InBody outer) : b.reopenFormatting = b := by
  have htake : b.formatting.takeWhile (fun e => !b.isSettled e) = [] := by
    cases hformatting : b.formatting with
    | nil => rfl
    | cons e rest => rw [List.takeWhile_cons_of_neg (by simp [h.isSettled_of_mem (hformatting ▸ List.mem_cons_self)])]
  have hdrop : b.formatting.dropWhile (fun e => !b.isSettled e) = b.formatting := by
    cases hformatting : b.formatting with
    | nil => rfl
    | cons e rest => rw [List.dropWhile_cons_of_neg (by simp [h.isSettled_of_mem (hformatting ▸ List.mem_cons_self)])]
  rw [reopenFormatting, htake, hdrop]
  rfl

/-- What the formatting in force belongs to. -/
theorem formattingHere_eq (h : b.InBody outer) :
    b.formattingHere.map (fun (i, tag) => (i, tag.name)) = openFormats b.stack outer := by
  have hformatting := h.formatting
  unfold formattingHere
  generalize b.formatting = entries at hformatting
  generalize openFormats b.stack outer = keys at hformatting
  induction entries generalizing keys with
  | nil => cases keys <;> first | rfl | cases hformatting
  | cons e entries ih =>
    cases keys with
    | nil => cases hformatting
    | cons key keys =>
      rw [List.map_cons, List.map_cons] at hformatting
      obtain ⟨hkey, hrest⟩ := List.cons.inj hformatting
      cases e with
      | border => cases hkey
      | element i tag =>
        obtain rfl := Option.some.inj hkey
        rw [← ih keys hrest]
        rfl

/-- What belongs to formatting is an element around the place. -/
theorem mem_of_mem_formattingHere (h : b.InBody outer) {tag : StartTag} (hin : (i, tag) ∈ b.formattingHere) :
    tag.name ∈ outer ∧ b.nameOf i = .html tag.name := by
  have hkey : (i, tag.name) ∈ openFormats b.stack outer :=
    h.formattingHere_eq ▸ List.mem_map_of_mem (f := fun e : Nat × StartTag => (e.1, e.2.name)) hin
  have hzip := (List.mem_filter.1 hkey).1
  refine ⟨(List.of_mem_zip hzip).2, nameOf_of_opens ?_⟩
  exact List.forall₂_zip h.stack hzip

/-- There are not too many of formatting that is not around the place that often. -/
theorem length_filter_sameTag (h : b.InBody outer) (tag : StartTag) :
    (b.formattingHere.filter fun (_, t) => sameTag tag t).length ≤ outer.count tag.name := by
  have hsame : (b.formattingHere.filter fun (_, t) => sameTag tag t).length ≤
      (b.formattingHere.filter fun (_, t) => t.name == tag.name).length := by
    rw [← List.countP_eq_length_filter, ← List.countP_eq_length_filter]
    refine List.countP_mono_left fun e _ he => ?_
    simp only [sameTag, Bool.and_eq_true] at he
    rw [beq_iff_eq] at he
    simp [he.1.1]
  have hkeys : (b.formattingHere.filter fun (_, t) => t.name == tag.name).length =
      ((openFormats b.stack outer).map Prod.snd).count tag.name := by
    rw [← h.formattingHere_eq, List.map_map, ← List.countP_eq_length_filter, List.count, List.countP_map]
    rfl
  have hsublist : ((openFormats b.stack outer).map Prod.snd).Sublist outer := by
    have hzip : (b.stack.zip outer).map Prod.snd = outer := List.map_snd_zip (Nat.le_of_eq h.stack.length_eq.symm)
    have := (List.filter_sublist (p := fun e : Nat × Text => (startRule e.2).isFormatting) (l := b.stack.zip outer)).map Prod.snd
    rwa [hzip] at this
  exact (hsame.trans (Nat.le_of_eq hkeys)).trans (hsublist.count_le _)

/-- Formatting is opened and put in force. -/
theorem openFormatting_eq (h : b.InBody outer) (hn : n ≠ "template".toList) (hattrs : attrs.isPlain = true)
    (hcount : outer.count n < 3) :
    b.openFormatting (startTagOf n attrs) =
      { b.grown n attrs with
        formatting := .element b.arena.size (startTagOf n attrs) :: b.formatting, stack := b.arena.size :: b.stack } := by
  have hsame : ¬(b.formattingHere.filter fun (_, t) => sameTag (startTagOf n attrs) t).length ≥ 3 :=
    Nat.not_le.2 (Nat.lt_of_le_of_lt (h.length_filter_sameTag (startTagOf n attrs)) hcount)
  unfold openFormatting
  dsimp only
  rw [if_neg hsame, show (startTagOf n attrs).name = n from rfl, h.addElement_eq hn hattrs]
  rfl

/-! ## Start tags -/

theorem leaveParagraph_eq (h : b.InBody outer) (hp : LocalePages.inParagraph outer = false) : b.leaveParagraph = b := by
  rw [leaveParagraph, h.inParagraph_eq, hp, if_neg Bool.false_ne_true]

theorem noFrames (h : b.InBody outer) : b.noFrames.InBody outer := { h with toStands := h.toStands.congr rfl rfl rfl }

/-- An item that does not end another one is opened. -/
theorem startItem_eq (h : b.InBody outer) (hitem : inItem n outer = false) (hp : LocalePages.inParagraph outer = false) :
    b.startItem (startTagOf n attrs) = b.noFrames.openTag (startTagOf n attrs) := by
  have hnames : b.noFrames.stack.map b.noFrames.nameOf = outer.map .html := h.noFrames.map_nameOf
  unfold startItem
  dsimp only
  rw [hnames]
  unfold inItem at hitem
  dsimp only at hitem
  split
  · rename_i found hfound
    rw [show (startTagOf n attrs).name = n from rfl] at hfound ⊢
    rw [hfound, Option.any_some] at hitem
    rw [hitem, if_neg Bool.false_ne_true, h.noFrames.leaveParagraph_eq hp]
  · rw [h.noFrames.leaveParagraph_eq hp]

/-- No link is in force where no link is around the place. -/
theorem find_link_eq_none (h : b.InBody outer) (ha : outer.contains "a" = false) :
    (b.formattingHere.find? fun (i, _) => (b.nameOf i).isHtml ["a"]) = none := by
  rw [List.find?_eq_none]
  rintro ⟨i, tag⟩ hin hlink
  obtain ⟨houter, hname⟩ := h.mem_of_mem_formattingHere hin
  dsimp only at hlink
  rw [hname, ElementName.isHtml_html, Text.isOneOf_singleton, beq_iff_eq] at hlink
  rw [hlink] at houter
  rw [List.contains_iff_mem.2 houter] at ha
  cases ha

/-- The page with an element open at its place that was opened by a rule. -/
def openedBy (b : Builder) (rule : StartRule) (n : Text) (attrs : Attrs) : Builder :=
  { b.grown n attrs with
    stack := b.arena.size :: b.stack
    formatting := if rule.isFormatting then .element b.arena.size (startTagOf n attrs) :: b.formatting else b.formatting
    form := if rule = .form then some b.arena.size else b.form
    newlineDrops := rule == .preformatted }

/-- The start tag of an element that other nodes can be in does nothing but to open it. -/
theorem openBy_eq (h : b.InBody outer) (hn : n ≠ "template".toList) (hattrs : attrs.isPlain = true)
    (hopens : rule.opens n outer = true) {e : EndRule} (hrule : rule.endsBy e = true) (hdrops : b.newlineDrops = false) :
    (b.openBy (startTagOf n attrs) rule).fixed = (openedBy b rule n attrs).fixed ∧
      (b.openBy (startTagOf n attrs) rule).arena = (b.grown n attrs).arena := by
  cases rule with
  | block =>
    have hp : LocalePages.inParagraph outer = false := by simpa [StartRule.opens] using hopens
    rw [openBy, h.leaveParagraph_eq hp, h.openTag_eq hn hattrs]
    exact ⟨by simp [fixed, openedBy, push, grown, hdrops, StartRule.isFormatting], rfl⟩
  | heading =>
    have hp : LocalePages.inParagraph outer = false := by
      simp only [StartRule.opens, Bool.and_eq_true, Bool.not_eq_true'] at hopens
      exact hopens.1
    have hheading : b.currentIs ElementName.headingTags = false := by
      simp only [StartRule.opens, Bool.and_eq_true, Bool.not_eq_true'] at hopens
      obtain ⟨below, m, rest, -, rfl, hcurrent⟩ := h.exists_current
      rw [currentIs, currentName, nameOf_of_opens hcurrent, ElementName.isHtml_html]
      exact hopens.2
    have hopen : b.openBy (startTagOf n attrs) .heading =
        (if b.leaveParagraph.currentIs ElementName.headingTags then b.leaveParagraph.pop else b.leaveParagraph).openTag
          (startTagOf n attrs) := rfl
    rw [hopen, h.leaveParagraph_eq hp, hheading, if_neg Bool.false_ne_true, h.openTag_eq hn hattrs]
    exact ⟨by simp [fixed, openedBy, push, grown, hdrops, StartRule.isFormatting], rfl⟩
  | preformatted =>
    have hp : LocalePages.inParagraph outer = false := by simpa [StartRule.opens] using hopens
    rw [openBy, h.leaveParagraph_eq hp, h.openTag_eq hn hattrs]
    exact ⟨by simp [fixed, openedBy, push, grown, Builder.noFrames, StartRule.isFormatting], rfl⟩
  | form =>
    simp only [StartRule.opens, Bool.and_eq_true, Bool.not_eq_true'] at hopens
    have hform : b.form.isSome = false := h.form.trans hopens.2
    have htemplate : ((b.grown n attrs).push b.arena.size).isOpen "template" = false := by
      rw [(h.push n attrs).isOpen_eq, List.contains_cons, h.template, Bool.or_false]
      exact beq_false_of_ne (Ne.symm hn)
    have hopen : b.openBy (startTagOf n attrs) .form =
        if b.form.isSome && !b.isOpen "template" then b
        else if (b.leaveParagraph.openTag (startTagOf n attrs)).isOpen "template" then b.leaveParagraph.openTag (startTagOf n attrs)
        else { b.leaveParagraph.openTag (startTagOf n attrs) with
          form := some (b.leaveParagraph.openTag (startTagOf n attrs)).current } := rfl
    rw [hopen, hform, Bool.false_and, if_neg Bool.false_ne_true, h.leaveParagraph_eq hopens.1, h.openTag_eq hn hattrs, htemplate,
      if_neg Bool.false_ne_true]
    exact ⟨by simp [fixed, openedBy, push, grown, hdrops, StartRule.isFormatting, current], rfl⟩
  | item =>
    simp only [StartRule.opens, Bool.and_eq_true, Bool.not_eq_true'] at hopens
    rw [openBy, h.startItem_eq hopens.2 hopens.1, h.noFrames.openTag_eq hn hattrs]
    exact ⟨by simp [fixed, openedBy, push, grown, Builder.noFrames, hdrops, StartRule.isFormatting], rfl⟩
  | button =>
    have hbutton : b.scopeHas "button" = false := by
      rw [scopeHas, h.inScope_eq]
      simpa [StartRule.opens] using hopens
    have hopen : b.openBy (startTagOf n attrs) .button =
        ((if b.scopeHas "button" then b.endSilently.popTag "button" else b).reopenFormatting.openTag (startTagOf n attrs)).noFrames :=
      rfl
    rw [hopen, hbutton, if_neg Bool.false_ne_true, h.reopenFormatting_eq, h.openTag_eq hn hattrs]
    exact ⟨by simp [fixed, openedBy, push, grown, Builder.noFrames, hdrops, StartRule.isFormatting], rfl⟩
  | link =>
    simp only [StartRule.opens, Bool.and_eq_true, Bool.not_eq_true', beq_iff_eq] at hopens
    obtain ⟨ha, rfl⟩ := hopens
    have hcount : outer.count ("a" : Text) < 3 := by
      rw [List.count_eq_zero.2 fun hin => by rw [List.contains_iff_mem.2 hin] at ha; cases ha]
      decide
    rw [openBy, h.find_link_eq_none ha]
    dsimp only
    rw [h.reopenFormatting_eq, h.openFormatting_eq hn hattrs hcount]
    exact ⟨by simp [fixed, openedBy, grown, hdrops, StartRule.isFormatting], rfl⟩
  | formatting =>
    rw [openBy, h.reopenFormatting_eq, h.openFormatting_eq hn hattrs (by simpa [StartRule.opens] using hopens)]
    exact ⟨by simp [fixed, openedBy, grown, hdrops, StartRule.isFormatting], rfl⟩
  | unbroken =>
    simp only [StartRule.opens, Bool.and_eq_true, Bool.not_eq_true', decide_eq_true_eq] at hopens
    have hnobr : b.scopeHas "nobr" = false := by
      rw [scopeHas, h.inScope_eq]
      exact hopens.1
    have hopen : b.openBy (startTagOf n attrs) .unbroken =
        (if b.reopenFormatting.scopeHas "nobr" then (b.reopenFormatting.adopt "nobr").reopenFormatting
          else b.reopenFormatting).openFormatting (startTagOf n attrs) := rfl
    rw [hopen, h.reopenFormatting_eq, hnobr, if_neg Bool.false_ne_true, h.openFormatting_eq hn hattrs hopens.2]
    exact ⟨by simp [fixed, openedBy, grown, hdrops, StartRule.isFormatting], rfl⟩
  | plain =>
    rw [openBy, h.reopenFormatting_eq, h.openTag_eq hn hattrs]
    exact ⟨by simp [fixed, openedBy, push, grown, hdrops, StartRule.isFormatting], rfl⟩
  | _ => cases e <;> cases hrule

/-- The start tag of an element without an end tag puts the element at the place, and leaves it closed. -/
theorem openBy_closed (h : b.InBody outer) (hn : n ≠ "template".toList) (hattrs : attrs.isPlain = true)
    (hopens : rule.opens n outer = true) (hrule : rule = .bare ∨ rule = .void ∨ rule = .separator) :
    (b.openBy (startTagOf n attrs) rule).fixed = b.fixed ∧
      (b.openBy (startTagOf n attrs) rule).arena = (b.grown n attrs).arena := by
  rcases hrule with rfl | rfl | rfl
  · rw [openBy, h.addTag_eq hn hattrs]
    exact ⟨rfl, rfl⟩
  · rw [openBy, addVoid, h.reopenFormatting_eq, h.addTag_eq hn hattrs]
    split <;> exact ⟨rfl, rfl⟩
  · have hp : LocalePages.inParagraph outer = false := by simpa [StartRule.opens] using hopens
    rw [openBy, h.leaveParagraph_eq hp, h.addTag_eq hn hattrs]
    exact ⟨rfl, rfl⟩

end InBody

/-! ## End tags -/

/-- The innermost element is found by every search for it. -/
theorem inScope_of_current {wanted ends : ElementName → Bool} {below : List Nat} (hstack : b.stack = i :: below)
    (hi : wanted (b.nameOf i) = true) : b.inScope ends wanted = true := by
  rw [inScope, hstack, found, hi]
  rfl

/-- Nothing is closed where the innermost element is not of a class. -/
theorem popWhile_of_current {p : ElementName → Bool} {below : List Nat} (hstack : b.stack = i :: below)
    (hi : p (b.nameOf i) = false) : b.popWhile p = b := by
  rw [popWhile, hstack, List.dropWhile_cons_of_neg (by simp [hi]), ← hstack]

/-- The innermost element is closed alone where it is the one that is wanted. -/
theorem popThrough_of_current {wanted : ElementName → Bool} {below : List Nat} (hstack : b.stack = i :: below)
    (hi : wanted (b.nameOf i) = true) : b.popThrough wanted = { b with stack := below } := by
  rw [popThrough, hstack, List.dropWhile_cons_of_neg (by simp [hi])]
  rfl

/-- Formatting that is the innermost element is closed, and no longer in force. -/
theorem adopt_of_current {below : List Nat} {tag : StartTag} {formatting : List Formatting} (hstack : b.stack = i :: below)
    (hformatting : b.formatting = .element i tag :: formatting) :
    b.adopt tag.name = { b with stack := below, formatting := formatting } := by
  have hisFormatting : b.isFormatting b.current = true := by
    simp [isFormatting, current, hstack, hformatting, Formatting.isOf]
  have hfind : (b.formattingHere.find? fun (_, t) => t.name == tag.name) = some (i, tag) := by
    rw [formattingHere, hformatting]
    simp
  have honce : b.adoptOnce i tag = ({ b with stack := below, formatting := formatting }, false) := by
    have habove : b.stack.takeWhile (· != i) = [] := by
      rw [hstack, List.takeWhile_cons_of_neg (by simp)]
    have hfound : found (· == i) (fun i => (b.nameOf i).endsScope) b.stack = true := by
      rw [hstack, found, beq_self_eq_true]
      rfl
    have hdrop : b.stack.drop (b.stack.takeWhile (· != i)).length = i :: below := by
      rw [habove]
      exact hstack
    unfold adoptOnce
    dsimp only
    rw [hdrop]
    dsimp only
    rw [hfound, habove, Bool.not_true, if_neg Bool.false_ne_true]
    dsimp only [List.reverse_nil, List.find?_nil]
    rw [unformat, hformatting]
    simp [Formatting.isOf]
  rw [adopt, hisFormatting, Bool.not_true, Bool.and_false, if_neg Bool.false_ne_true]
  unfold adoptTurns
  rw [hfind]
  dsimp only
  rw [honce]
  rfl

/-- The end tag of the innermost element does nothing but to close it. -/
theorem closeBy_eq {below : List Nat} {formatting : List Formatting} {form : Option Nat} {e : EndRule}
    (hstack : b.stack = i :: below) (hname : b.nameOf i = .html n) (hends : rule.endsBy e = true) (hsuits : e.suits n = true)
    (hformatting : b.formatting = if rule.isFormatting then .element i (startTagOf n attrs) :: formatting else formatting)
    (hform : b.form = if rule = .form then some i else form) (hnone : rule = .form → form = none)
    (htemplate : b.isOpen "template" = false) :
    b.closeBy n e = { b with stack := below, formatting := formatting, form := form } := by
  have hself : (b.nameOf i).isHtml [n] = true := by
    rw [hname, ElementName.isHtml_html, Text.isOneOf_singleton]
    exact beq_self_eq_true n
  have hquiet (h : (ElementName.html n).endsSilently = false) : b.endSilently = b :=
    popWhile_of_current hstack (by rw [hname, h])
  have hquietExcept : b.endSilentlyExcept n = b := popWhile_of_current hstack (by simp [hself])
  rw [StartRule.isFormatting_of_endsBy hends] at hformatting
  simp only [StartRule.eq_form_iff_of_endsBy hends] at hform hnone
  have hplain (hformats : (e == .formatting) = false) (hforms : e ≠ .form) :
      ({ b with stack := below } : Builder) = { b with stack := below, formatting := formatting, form := form } := by
    rw [hformats, if_neg Bool.false_ne_true] at hformatting
    rw [if_neg hforms] at hform
    rw [← hformatting, ← hform]
  cases e with
  | block =>
    have hopen : b.closeBy n .block = if b.scopeHas n then b.endSilently.popTag n else b := rfl
    rw [hopen, scopeHas, inScope_of_current hstack hself, if_pos rfl, hquiet (by simpa [EndRule.suits] using hsuits), popTag,
      popThrough_of_current hstack hself]
    exact hplain rfl (by simp)
  | form =>
    have hfound' : found (· == i) (fun i => (({ b with form := none } : Builder).nameOf i).endsScope) b.stack = true := by
      rw [hstack, found, beq_self_eq_true]
      rfl
    have hclose : b.closeBy n .form = b.closeForm := rfl
    have hquiet' : ({ b with form := none } : Builder).endSilently = { b with form := none } :=
      popWhile_of_current hstack (by rw [show ({ b with form := none } : Builder).nameOf i = .html n from hname]
                                     simpa [EndRule.suits] using hsuits)
    have herase : b.stack.erase i = below := by rw [hstack, List.erase_cons_head]
    rw [if_pos rfl] at hform
    rw [hclose, closeForm, htemplate, if_neg Bool.false_ne_true, hform]
    dsimp only
    rw [hfound', if_pos rfl, hquiet', unstack, herase, hnone rfl, show b.formatting = formatting from hformatting]
  | paragraph =>
    obtain rfl : n = "p".toList := beq_iff_eq.1 hsuits
    have hparagraph : b.inParagraph = true := inScope_of_current hstack hself
    have hclose : b.closeBy "p" .paragraph = (if b.inParagraph then b else b.openImplied "p").closeParagraph := rfl
    rw [hclose, hparagraph, if_pos rfl, closeParagraph, hquietExcept, popTag, popThrough_of_current hstack hself]
    exact hplain rfl (by simp)
  | item =>
    have hhere : (if n = "li".toList then b.inScope ElementName.endsItemScope (·.isHtml ["li"]) else b.scopeHas n) = true := by
      split
      · rename_i hli
        exact inScope_of_current hstack (hli ▸ hself)
      · exact inScope_of_current hstack hself
    have hclose : b.closeBy n .item =
        if (if n = "li".toList then b.inScope ElementName.endsItemScope (·.isHtml ["li"]) else b.scopeHas n) then
          (b.endSilentlyExcept n).popTag n
        else b := rfl
    rw [hclose, hhere, if_pos rfl, hquietExcept, popTag, popThrough_of_current hstack hself]
    exact hplain rfl (by simp)
  | heading =>
    simp only [EndRule.suits, Bool.and_eq_true, Bool.not_eq_true'] at hsuits
    have hheading : (b.nameOf i).isHtml ElementName.headingTags = true := by
      rw [hname]
      exact hsuits.2
    have hclose : b.closeBy n .heading =
        if b.inScope ElementName.endsScope (·.isHtml ElementName.headingTags) then
          b.endSilently.popThrough (·.isHtml ElementName.headingTags)
        else b := rfl
    rw [hclose, inScope_of_current hstack hheading, if_pos rfl, hquiet hsuits.1, popThrough_of_current hstack hheading]
    exact hplain rfl (by simp)
  | formatting =>
    have hclosed : b.adopt (startTagOf n attrs).name = _ := adopt_of_current hstack hformatting
    rw [show b.form = form from hform] at *
    exact hclosed
  | plain =>
    have hinside : (b.stack.takeWhile fun i => !(b.nameOf i).isHtml [n] && !(b.nameOf i).isSpecial) = [] := by
      rw [hstack, List.takeWhile_cons_of_neg (by simp [hself])]
    have hclose : b.closeBy n .plain = b.closeAny n := rfl
    have hdrop : b.stack.drop
        (b.stack.takeWhile fun i => !(b.nameOf i).isHtml [n] && !(b.nameOf i).isSpecial).length = i :: below := by
      rw [hinside]
      exact hstack
    rw [hclose]
    unfold closeAny
    dsimp only
    rw [hdrop]
    dsimp only
    rw [hself, if_pos rfl]
    exact hplain rfl (by simp)
  | barred => cases hsuits

end Builder

end LocalePages
