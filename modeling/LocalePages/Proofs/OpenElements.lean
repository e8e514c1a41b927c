import LocalePages.Markup.Construction.Page
import LocalePages.Proofs.PlainNodes
import Mathlib.Data.List.Forall2

/-!
# The elements around a place

A page under construction stands at a place inside some elements (`Builder.Stands`). What the rules ask about the stack of open
elements is then asked about their names, and what they put into the page is planted at the end of the innermost one.
-/

namespace LocalePages

/-- Whether an element of ordinary markup that is no template is at a place. -/
def Arena.Opens (a : Arena) (i : Nat) (n : Text) : Prop := ∃ attrs, (a.cell i).shape = .element (.html n) attrs none

namespace Arena.Opens

variable {a a' : Arena} {i p : Nat} {n : Text}

theorem lt_size (h : a.Opens i n) : i < a.size := by
  by_contra hi
  obtain ⟨attrs, hshape⟩ := h
  rw [cell_of_size_le (Nat.le_of_not_lt hi)] at hshape
  cases hshape

theorem of_keeps (h : a.Opens i n) (hkeeps : Keeps p a a') : a'.Opens i n := by
  obtain ⟨attrs, hshape⟩ := h
  exact ⟨attrs, by rw [hkeeps.shape_eq (Arena.Opens.lt_size ⟨attrs, hshape⟩), hshape]⟩

/-- The new node of an element. -/
theorem plant (hp : p < a.size) (n : Text) (attrs : Attrs) : (a.plant p (.element (.html n) attrs none)).Opens a.size n :=
  ⟨attrs, by rw [cell_plant hp, if_pos rfl]⟩

end Arena.Opens

theorem ElementName.isHtml_html (n : Text) (tags : List Text) : (ElementName.html n).isHtml tags = n.isOneOf tags := rfl

theorem Text.isOneOf_singleton (n m : Text) : n.isOneOf [m] = (n == m) := by
  simp [Text.isOneOf, Bool.beq_eq_decide_eq]

namespace Builder

variable {b b' : Builder} {outer : List Text} {n : Text} {p : Piece}

/-- Whether a page stands at a place inside elements of ordinary markup with these names, the innermost first. -/
structure Stands (b : Builder) (outer : List Text) : Prop where
  stack : List.Forall₂ b.arena.Opens b.stack outer
  ne_nil : outer ≠ []
  fosters : b.fosters = false

/-- What text and comments leave as it is. -/
def fixed (b : Builder) : Builder := { b with arena := .empty, framesAllowed := true }

/-- What the rules go by, apart from the nodes. -/
def settings (b : Builder) : Builder := { b.fixed with back := .initial }

/-- The page as it takes in the next token. -/
def ready (b : Builder) : Builder := { b with newlineDrops := false, reading := none }

theorem settings_eq (h : b'.fixed = b.fixed) : b'.settings = b.settings :=
  congrArg (fun b : Builder => { b with back := .initial }) h

theorem back_eq (h : b'.fixed = b.fixed) : b'.back = b.back := (congrArg Builder.back h :)

theorem mode_eq (h : b'.settings = b.settings) : b'.mode = b.mode := (congrArg Builder.mode h :)

theorem stack_eq (h : b'.settings = b.settings) : b'.stack = b.stack := (congrArg Builder.stack h :)

theorem formatting_eq (h : b'.settings = b.settings) : b'.formatting = b.formatting := (congrArg Builder.formatting h :)

theorem form_eq (h : b'.settings = b.settings) : b'.form = b.form := (congrArg Builder.form h :)

theorem fosters_eq (h : b'.settings = b.settings) : b'.fosters = b.fosters := (congrArg Builder.fosters h :)

theorem reading_eq (h : b'.settings = b.settings) : b'.reading = b.reading := (congrArg Builder.reading h :)

theorem current_eq (h : b'.settings = b.settings) : b'.current = b.current := by rw [current, current, stack_eq h]

theorem nameOf_of_opens {i : Nat} (h : b.arena.Opens i n) : b.nameOf i = .html n := by
  obtain ⟨attrs, hshape⟩ := h
  rw [nameOf, Arena.nameOf?, hshape]
  rfl

namespace Stands

/-- The innermost element. -/
theorem exists_current (h : b.Stands outer) :
    ∃ below n rest, b.stack = b.current :: below ∧ outer = n :: rest ∧ b.arena.Opens b.current n := by
  have hstack := h.stack
  cases hstack' : b.stack with
  | nil =>
    rw [hstack'] at hstack
    exact absurd (List.forall₂_nil_left_iff.1 hstack) h.ne_nil
  | cons i below =>
    rw [hstack'] at hstack
    obtain ⟨n, rest, hopens, -, houter⟩ := List.forall₂_cons_left_iff.1 hstack
    exact ⟨below, n, rest, by simp [current, hstack'], houter, by simpa [current, hstack'] using hopens⟩

theorem current_lt (h : b.Stands outer) : b.current < b.arena.size := by
  obtain ⟨_, _, _, -, -, hopens⟩ := h.exists_current
  exact hopens.lt_size

/-- The names of the open elements. -/
theorem map_nameOf (h : b.Stands outer) : b.stack.map b.nameOf = outer.map .html := by
  have hstack := h.stack
  clear h
  generalize b.stack = stack at hstack
  induction hstack with
  | nil => rfl
  | cons hopens _ ih => rw [List.map_cons, List.map_cons, nameOf_of_opens hopens, ih]

theorem inScope_eq (h : b.Stands outer) (ends wanted : ElementName → Bool) : b.inScope ends wanted = reaches wanted ends outer := by
  have hstack := h.stack
  clear h
  unfold inScope
  generalize b.stack = stack at hstack
  induction hstack with
  | nil => rfl
  | cons hopens _ ih => rw [found, reaches, ih, nameOf_of_opens hopens]

theorem isOpen_eq (h : b.Stands outer) (tag : Text) : b.isOpen tag = outer.contains tag := by
  have hstack := h.stack
  clear h
  unfold isOpen
  generalize b.stack = stack at hstack
  induction hstack with
  | nil => rfl
  | cons hopens _ ih =>
    rw [List.any_cons, ih, nameOf_of_opens hopens, ElementName.isHtml_html, Text.isOneOf_singleton, List.contains_cons]
    rw [Bool.beq_comm]

theorem inParagraph_eq (h : b.Stands outer) : b.inParagraph = LocalePages.inParagraph outer := h.inScope_eq _ _

/-- A place stays where it is when something is planted. -/
theorem of_keeps {i : Nat} (h : b.Stands outer) (hsettings : b'.settings = b.settings)
    (hkeeps : Arena.Keeps i b.arena b'.arena) : b'.Stands outer where
  stack := by
    rw [stack_eq hsettings]
    exact h.stack.imp fun _ _ hopens => hopens.of_keeps hkeeps
  ne_nil := h.ne_nil
  fosters := (fosters_eq hsettings).trans h.fosters

/-- A place hangs on the nodes and the stack. -/
theorem congr (h : b.Stands outer) (harena : b'.arena = b.arena) (hstack : b'.stack = b.stack) (hfosters : b'.fosters = b.fosters) :
    b'.Stands outer where
  stack := by
    rw [harena, hstack]
    exact h.stack
  ne_nil := h.ne_nil
  fosters := hfosters.trans h.fosters

theorem placeFor_none (h : b.Stands outer) : b.placeFor none = .lastIn b.current := by
  obtain ⟨_, _, _, -, -, attrs, hshape⟩ := h.exists_current
  rw [placeFor, Option.getD_none, h.fosters, Bool.false_and, if_neg Bool.false_ne_true]
  dsimp only
  rw [hshape]

theorem isForeign_eq_false (h : b.Stands outer) (p : Piece) : b.isForeign p = false := by
  obtain ⟨_, _, _, -, -, hopens⟩ := h.exists_current
  have hspace : (b.currentName.space == Space.html) = true := by
    rw [currentName, nameOf_of_opens hopens]
    rfl
  unfold isForeign
  dsimp only
  rw [hspace, Bool.or_true]
  rfl

end Stands

/-- A piece is taken in by the rule of the mode, where it is settled by it. -/
theorem accept_of_settled (hforeign : b.isForeign p = false) (h : b.rule b.mode p = .settled b') : b.accept p = b' := by
  rw [accept, settle, hforeign, if_neg Bool.false_ne_true, h]

/-- A piece that one rule passes on to another is taken in by the other one. -/
theorem accept_of_again {b'' : Builder} (hforeign : b.isForeign p = false) (h : b.rule b.mode p = .again b')
    (hforeign' : b'.isForeign p = false) (h' : b'.rule b'.mode p = .settled b'') : b.accept p = b'' := by
  rw [accept, settle, hforeign, if_neg Bool.false_ne_true, h]
  dsimp only
  rw [settle, hforeign', if_neg Bool.false_ne_true, h']

/-! ## New elements -/

/-- The page with a new element at the end of the innermost one. -/
def grown (b : Builder) (n : Text) (attrs : Attrs) : Builder :=
  { b with arena := b.arena.plant b.current (.element (.html n) attrs none) }

theorem startTagOf_attrs {attrs : Attrs} (h : attrs.isPlain = true) (n : Text) :
    Attrs.ofList (plainAttrs (startTagOf n attrs).attrs) = attrs := by
  rw [Attrs.isPlain, Bool.and_eq_true, Bool.and_eq_true, beq_iff_eq, List.all_eq_true] at h
  obtain ⟨⟨hplain, -⟩, hofList⟩ := h
  have hattrs : plainAttrs (startTagOf n attrs).attrs = attrs := by
    rw [plainAttrs, startTagOf, List.map_map]
    conv => rhs; rw [← List.map_id attrs]
    refine List.map_congr_left fun a ha => ?_
    obtain ⟨hspace, -⟩ := Token.facts_of_isPlain (hplain a ha)
    cases a
    cases hspace
    rfl
  rw [hattrs, hofList]

/-- An element is planted at the end of the innermost one. -/
theorem Stands.addElement_eq (h : b.Stands outer) (hn : n ≠ "template".toList) {attrs : Attrs} (hattrs : attrs.isPlain = true) :
    b.addElement (.html n) (plainAttrs (startTagOf n attrs).attrs) = (b.grown n attrs, b.arena.size) := by
  have hname : ElementName.html n ≠ ⟨.html, "template"⟩ := fun heq => hn (congrArg ElementName.tag heq)
  rw [addElement, h.placeFor_none, Arena.addElement, if_neg hname, startTagOf_attrs hattrs]
  rfl

theorem Stands.addTag_eq (h : b.Stands outer) (hn : n ≠ "template".toList) {attrs : Attrs} (hattrs : attrs.isPlain = true) :
    b.addTag (startTagOf n attrs) = b.grown n attrs :=
  congrArg Prod.fst (h.addElement_eq hn hattrs)

theorem Stands.openTag_eq (h : b.Stands outer) (hn : n ≠ "template".toList) {attrs : Attrs} (hattrs : attrs.isPlain = true) :
    b.openTag (startTagOf n attrs) = (b.grown n attrs).push b.arena.size := by
  rw [openTag, show (startTagOf n attrs).name = n from rfl, h.addElement_eq hn hattrs]

theorem Stands.keeps_grown (h : b.Stands outer) (n : Text) (attrs : Attrs) :
    Arena.Keeps b.current b.arena (b.grown n attrs).arena := Arena.keeps_plant h.current_lt _

/-- An element that is opened is the innermost one. -/
theorem Stands.push (h : b.Stands outer) (n : Text) (attrs : Attrs) :
    ((b.grown n attrs).push b.arena.size).Stands (n :: outer) where
  stack := .cons (.plant h.current_lt n attrs) (h.stack.imp fun _ _ hopens => hopens.of_keeps (h.keeps_grown n attrs))
  ne_nil := List.cons_ne_nil n outer
  fosters := h.fosters

theorem Stands.addText_eq (h : b.Stands outer) (t : Text) :
    b.addText t = { b with arena := b.arena.appendText b.current t } := by
  rw [addText, h.placeFor_none]

theorem Stands.addComment_eq (h : b.Stands outer) (t : Text) :
    b.addComment t = { b with arena := b.arena.plant b.current (.comment t) } := by
  rw [addComment, h.placeFor_none]
  rfl

end Builder

end LocalePages
