import LocalePages.Proofs.OpenElements
import Mathlib.Data.List.SplitBy

/-!
# Reading on

Reading a page token by token is a run of steps (`Builder.Reads`). A token that was written is read in one step, a stretch of text
comes to one node whatever pieces it is taken in by (`Builder.reads_text`), and an element that is read as text in three steps at
most (`Builder.reads_rawElement`).
-/

namespace LocalePages

/-- Whether a comment goes to the innermost element. -/
def Mode.keepsComments : Mode → Bool
  | beforeHead | inHead | afterHead | inBody => true
  | _ => false

namespace Builder

variable {b b' b'' : Builder} {outer : List Text} {reading reading' reading'' : Reading} {n t t' t'' rest : Text} {attrs : Attrs}

/-- Whether reading a text into a page comes to reading another text into another page. -/
def Reads (b : Builder) (reading : Reading) (t : Text) (b' : Builder) (reading' : Reading) (t' : Text) : Prop :=
  ∀ fuel, t.length < fuel → ∃ fuel', t'.length < fuel' ∧ readAll fuel b reading t = readAll fuel' b' reading' t'

theorem Reads.refl (b : Builder) (reading : Reading) (t : Text) : Reads b reading t b reading t := fun fuel h => ⟨fuel, h, rfl⟩

theorem Reads.trans (h : Reads b reading t b' reading' t') (h' : Reads b' reading' t' b'' reading'' t'') :
    Reads b reading t b'' reading'' t'' := by
  intro fuel hfuel
  obtain ⟨fuel', hfuel', heq⟩ := h fuel hfuel
  obtain ⟨fuel'', hfuel'', heq'⟩ := h' fuel' hfuel'
  exact ⟨fuel'', hfuel'', heq.trans heq'⟩

/-- A token is taken in. -/
theorem Reads.of_next (token : Token) (htoken : token ≠ .done) (hshort : t'.length < t.length)
    (hnext : ∀ fuel, t.length ≤ fuel → Token.next fuel reading b.readsSections t = ⟨some token, reading', t'⟩) :
    Reads b reading t (b.acceptToken token) ((b.acceptToken token).reading.getD reading') t' := by
  intro fuel hfuel
  cases fuel with
  | zero => cases hfuel
  | succ fuel =>
    refine ⟨fuel, by omega, ?_⟩
    conv => lhs; unfold readAll
    rw [hnext _ (Nat.le_of_lt hfuel)]
    cases token with
    | done => exact absurd rfl htoken
    | _ => rfl

/-! ## Text -/

/-- A run of text as a piece. -/
def pieceOf (run : Text) : Piece := if run.all isBlank then .space run else .words run

/-- Whether a page takes in every run of characters of some text at its place, as long as only such text was put there. -/
def TakesText (b : Builder) (t : Text) : Prop :=
  ∀ b' : Builder, b'.fixed = b.fixed → Arena.Keeps b.current b.arena b'.arena → ∀ run : Text, (∀ c ∈ run, c ∈ t) →
    (b'.accept (pieceOf run)).fixed = b.fixed ∧ (b'.accept (pieceOf run)).arena = b'.arena.appendText b.current run

/-- Text that goes on with more runs. -/
theorem foldl_accept_of_plant (hplace : b.current < b.arena.size) (htakes : b.TakesText t) {said : Text} {runs : List Text}
    (hruns : ∀ run ∈ runs, ∀ c ∈ run, c ∈ t) (hfixed : b'.fixed = b.fixed)
    (harena : b'.arena = b.arena.plant b.current (.text said.reverse)) :
    ((runs.map pieceOf).foldl accept b').fixed = b.fixed ∧
      ((runs.map pieceOf).foldl accept b').arena = b.arena.plant b.current (.text (said ++ runs.flatten).reverse) := by
  induction runs generalizing b' said with
  | nil => exact ⟨hfixed, by simpa using harena⟩
  | cons run runs ih =>
    obtain ⟨hfixed', harena'⟩ := htakes b' hfixed (harena ▸ Arena.keeps_plant hplace _) run
      (hruns run List.mem_cons_self)
    rw [harena, Arena.appendText_plant hplace, ← List.reverse_append] at harena'
    rw [List.map_cons, List.foldl_cons, List.flatten_cons, ← List.append_assoc]
    exact ih (fun run hrun => hruns run (List.mem_cons_of_mem _ hrun)) hfixed' harena'

/-- Text where none was before is one node, whatever runs it is cut into. -/
theorem foldl_accept_pieces (hplace : b.current < b.arena.size) (htakes : b.TakesText t) (hne : t ≠ [])
    (hends : b.arena.endsInText b.current = false) :
    ((pieces t).foldl accept b).fixed = b.fixed ∧
      ((pieces t).foldl accept b).arena = b.arena.plant b.current (.text t.reverse) := by
  have hpieces : pieces t = (t.splitBy fun c d => isBlank c == isBlank d).map pieceOf := rfl
  have hflatten := List.flatten_splitBy (fun c d => isBlank c == isBlank d) t
  rw [hpieces]
  generalize t.splitBy (fun c d => isBlank c == isBlank d) = runs at hflatten
  have hruns : ∀ run ∈ runs, ∀ c ∈ run, c ∈ t := fun run hrun c hc =>
    hflatten ▸ List.mem_flatten.2 ⟨run, hrun, hc⟩
  cases runs with
  | nil => exact absurd hflatten.symm hne
  | cons run runs =>
    obtain ⟨hfixed, harena⟩ := htakes b rfl (.refl _ _) run (hruns run List.mem_cons_self)
    rw [Arena.appendText_of_endsInText hends] at harena
    rw [List.map_cons, List.foldl_cons, ← hflatten, List.flatten_cons]
    exact foldl_accept_of_plant hplace htakes (fun run hrun => hruns run (List.mem_cons_of_mem _ hrun)) hfixed harena

/-- Text that does not start with a line feed to be dropped is taken in as it is. -/
theorem acceptText_eq (b : Builder) {drops : Bool} (h : drops = true → t.head? ≠ some '\n') :
    b.acceptText t false drops = (pieces t).foldl accept b := by
  unfold acceptText
  split
  · cases drops with
    | false => rfl
    | true => exact absurd rfl (h rfl)
  · rfl

/-- Text that was written is read and put at the place where it belongs. -/
theorem reads_text (hplace : b.current < b.arena.size) (htakes : b.ready.TakesText t) (hne : t ≠ [])
    (hends : b.arena.endsInText b.current = false) (hdrops : b.newlineDrops = true → t.head? ≠ some '\n') {source : Text}
    (hsource : source ≠ [])
    (hnext : ∀ fuel, Token.next fuel reading b.readsSections (source ++ rest) = ⟨some (.characters t false), reading, rest⟩) :
    ∃ b', Reads b reading (source ++ rest) b' reading rest ∧ b'.fixed = b.ready.fixed ∧
      b'.arena = b.arena.plantNode b.current (.text t) := by
  have htext : b.acceptToken (.characters t false) = (pieces t).foldl accept b.ready := acceptText_eq b.ready hdrops
  obtain ⟨hfixed, harena⟩ := foldl_accept_pieces (b := b.ready) hplace htakes hne hends
  have hshort : rest.length < (source ++ rest).length := by
    have := List.length_pos_of_ne_nil hsource
    rw [List.length_append]
    omega
  have hread : Reads b reading (source ++ rest) (b.acceptToken (.characters t false))
      ((b.acceptToken (.characters t false)).reading.getD reading) rest := .of_next _ (by simp) hshort fun fuel _ => hnext fuel
  have hnone : ((pieces t).foldl accept b.ready).reading = none := reading_eq (settings_eq hfixed)
  rw [htext, hnone] at hread
  exact ⟨_, hread, hfixed, harena⟩

/-! ## Comments -/

/-- A comment goes to the innermost element in some modes. -/
theorem Stands.accept_comment (h : b.Stands outer) (hmode : b.mode.keepsComments = true) (t : Text) :
    b.accept (.comment t) = { b with arena := b.arena.plant b.current (.comment t) } := by
  have hrule : b.rule b.mode (.comment t) = .settled (b.addComment t) := by
    cases hb : b.mode <;> rw [hb] at hmode <;> first | rfl | cases hmode
  exact (accept_of_settled (h.isForeign_eq_false _) hrule).trans (h.addComment_eq t)

/-- A comment that was written is read and put at the place where it belongs. -/
theorem reads_comment {p : Nat} (hplain : t.isPlainComment = true)
    (haccept : b.ready.accept (.comment t) = { b.ready with arena := b.arena.plant p (.comment t) }) (rest : Text) :
    ∃ b', Reads b .ordinary ("<!--".toList ++ t ++ ("-->".toList ++ rest)) b' .ordinary rest ∧ b'.fixed = b.ready.fixed ∧
      b'.arena = b.arena.plantNode p (.comment t) := by
  have hread : Reads b .ordinary ("<!--".toList ++ t ++ ("-->".toList ++ rest)) (b.acceptToken (.comment t))
      ((b.acceptToken (.comment t)).reading.getD .ordinary) rest :=
    .of_next _ (by simp) (by simp; omega) fun fuel _ => Token.next_comment hplain rest
  rw [show b.acceptToken (.comment t) = _ from haccept] at hread
  exact ⟨_, hread, rfl, rfl⟩

/-! ## Tags -/

/-- A start tag that was written is read. -/
theorem reads_start {name : ElementName} (hname : name.tag.isTagName = true) (hattrs : attrs.isPlain = true) :
    Reads b .ordinary (startTagText name attrs ++ rest) (b.ready.accept (.start (startTagOf name.tag attrs)))
      ((b.ready.accept (.start (startTagOf name.tag attrs))).reading.getD .ordinary) rest := by
  rw [Attrs.isPlain, Bool.and_eq_true, Bool.and_eq_true, List.all_eq_true, decide_eq_true_iff] at hattrs
  refine .of_next (.start (startTagOf name.tag attrs)) (by simp) ?_ fun fuel hfuel =>
    Token.next_startTagText hname hattrs.1.1 hattrs.1.2 hfuel
  rw [Token.startTagText_append]
  simp only [List.length_cons, List.length_append]
  omega

/-- An end tag that was written is read. -/
theorem reads_end
    (hnext : ∀ fuel, (Token.endTagText n ++ rest).length ≤ fuel →
      Token.next fuel reading b.readsSections (Token.endTagText n ++ rest) = ⟨some (.close n), .ordinary, rest⟩) :
    Reads b reading (Token.endTagText n ++ rest) (b.ready.accept (.close n))
      ((b.ready.accept (.close n)).reading.getD .ordinary) rest := by
  refine .of_next (.close n) (by simp) ?_ hnext
  rw [List.length_append, Token.length_endTagText]
  omega

/-! ## Elements that are read as text -/

/-- Whether a page was opened an element that is read as text. `drops` tells that a line feed that comes next may be dropped. -/
structure OpensText (b b' : Builder) (n : Text) (attrs : Attrs) (reading : Reading) (drops : Bool) : Prop where
  arena : b'.arena = (b.grown n attrs).arena
  settings : b'.ready.settings = { b.ready.settings with stack := b.arena.size :: b.stack, mode := .text }
  back : b'.back = b.mode
  reading : b'.reading = some reading
  drops : b'.newlineDrops = true → drops = true

/-- Text inside such an element is taken in. -/
theorem takesText_of_text (hstands : b.Stands outer) (hmode : b.mode = .text) (t : Text) : b.TakesText t := by
  intro b' hfixed hkeeps run _
  have hstands' := hstands.of_keeps (settings_eq hfixed) hkeeps
  have hmode' : b'.mode = .text := (mode_eq (settings_eq hfixed)).trans hmode
  have haccept : b'.accept (pieceOf run) = b'.addText run := by
    refine accept_of_settled (hstands'.isForeign_eq_false _) ?_
    rw [hmode', pieceOf]
    split <;> rfl
  rw [haccept, hstands'.addText_eq, current_eq (settings_eq hfixed)]
  exact ⟨hfixed, rfl⟩

/-- The end tag of such an element leads back to where it was opened. -/
theorem accept_close_of_text (hstands : b.Stands outer) (hmode : b.mode = .text) (n : Text) :
    b.accept (.close n) = { b.pop with mode := b.back } := by
  refine accept_of_settled (hstands.isForeign_eq_false _) ?_
  rw [hmode]
  rfl

/-- How an element with an end tag is written. -/
theorem writtenBefore_element {name : ElementName} (h : name.isVoid = false) (attrs : Attrs) (children : List Node) (rest : Text) :
    Node.writtenBefore rest .outside (.element name attrs children) =
      startTagText name attrs ++ Node.writtenAllBefore (Token.endTagText name.tag ++ rest) ⟨name.isRaw, false⟩ children := by
  have hend : Token.endTagText name.tag ++ rest = '<' :: '/' :: (name.tag ++ '>' :: rest) := by simp [Token.endTagText]
  have hstep : Node.writtenBefore rest .outside (.element name attrs children) =
      if name.isVoid then startTagText name attrs ++ Node.writtenAllBefore rest ⟨name.isRaw, name.isVoid⟩ children
      else startTagText name attrs ++
        Node.writtenAllBefore ('<' :: '/' :: (name.tag ++ '>' :: rest)) ⟨name.isRaw, name.isVoid⟩ children := rfl
  rw [hstep, h, hend, if_neg Bool.false_ne_true]

/-- How text alone is written. -/
theorem writtenAllBefore_text (raw : Bool) (t rest : Text) :
    Node.writtenAllBefore rest ⟨raw, false⟩ [.text t] = (if raw then t else t.flatMap escapedTextChar) ++ rest := rfl

/-- An element that is read as text is read from the way it is written. -/
theorem reads_rawElement (hstands : b.Stands outer) (hname : n.isTagName = true) (hattrs : attrs.isPlain = true)
    {children : List Node} {drops : Bool} (hholds : reading.holds (.html n) drops children = true)
    (hopens : OpensText b (b.ready.accept (.start (startTagOf n attrs))) n attrs reading drops)
    (hrest : rest.head? ≠ some '\ufeff') :
    ∃ b', Reads b .ordinary (Node.writtenBefore rest .outside (.element (.html n) attrs children)) b' .ordinary rest ∧
      b'.settings = b.ready.settings ∧ b'.arena = b.arena.plantNode b.current (.element (.html n) attrs children) := by
  unfold Reading.holds at hholds
  rw [Bool.and_eq_true, Bool.and_eq_true, Bool.not_eq_true', beq_iff_eq] at hholds
  obtain ⟨⟨hvoid, hraw⟩, hchildren⟩ := hholds
  obtain ⟨inside, hinside⟩ : ∃ inside : Text,
      inside = Node.writtenAllBefore (Token.endTagText n ++ rest) ⟨(ElementName.html n).isRaw, false⟩ children := ⟨_, rfl⟩
  have hstart : Reads b .ordinary (startTagText (.html n) attrs ++ inside) (b.ready.accept (.start (startTagOf n attrs)))
      ((b.ready.accept (.start (startTagOf n attrs))).reading.getD .ordinary) inside := reads_start hname hattrs
  have hwritten : Node.writtenBefore rest .outside (.element (.html n) attrs children) = startTagText (.html n) attrs ++ inside :=
    (writtenBefore_element hvoid attrs children rest).trans (congrArg _ hinside.symm)
  rw [hwritten]
  generalize b.ready.accept (.start (startTagOf n attrs)) = b₁ at hopens hstart
  have hstack : b₁.stack = b.arena.size :: b.stack := (congrArg Builder.stack hopens.settings :)
  have hmode : b₁.mode = .text := (congrArg Builder.mode hopens.settings :)
  have hfosters : b₁.fosters = b.fosters := (congrArg Builder.fosters hopens.settings :)
  have hstands₁ : b₁.Stands (n :: outer) := (hstands.push n attrs).congr hopens.arena hstack hfosters
  have hready : b₁.ready.Stands (n :: outer) := hstands₁.congr rfl rfl rfl
  have hcurrent : b₁.current = b.arena.size := by rw [current, hstack]; rfl
  -- the end tag, after the text or right away
  have hend (c : Builder) (hc : c.ready.fixed = b₁.ready.fixed) (hkeeps : Arena.Keeps b₁.current b₁.arena c.arena)
      (hnext : ∀ fuel, (Token.endTagText n ++ rest).length ≤ fuel →
        Token.next fuel reading c.readsSections (Token.endTagText n ++ rest) = ⟨some (.close n), .ordinary, rest⟩) :
      ∃ b', Reads c reading (Token.endTagText n ++ rest) b' .ordinary rest ∧ b'.settings = b.ready.settings ∧ b'.arena = c.arena := by
    have hcStands : c.ready.Stands (n :: outer) := hready.of_keeps (settings_eq hc) hkeeps
    have hcMode : c.ready.mode = .text := (mode_eq (settings_eq hc)).trans hmode
    have hread := reads_end hnext
    rw [accept_close_of_text hcStands hcMode] at hread
    refine ⟨_, hread, ?_, rfl⟩
    have hcSettings : c.ready.settings = { b.ready.settings with stack := b.arena.size :: b.stack, mode := .text } :=
      (settings_eq hc).trans hopens.settings
    have hback : c.ready.back = b.mode := (back_eq hc).trans hopens.back
    have hpop : ({ c.ready.pop with mode := c.ready.back } : Builder).settings =
        { c.ready.settings with stack := c.ready.settings.stack.drop 1, mode := c.ready.back } := rfl
    rw [hpop, hcSettings, hback]
    rfl
  rw [hopens.reading, Option.getD_some] at hstart
  split at hchildren
  · obtain ⟨b', hread, hsettings, harena⟩ := hend b₁ rfl (.refl _ _) fun fuel hfuel =>
      Token.next_rawEnd hchildren hname hrest hfuel
    exact ⟨b', hstart.trans (hinside ▸ hread), hsettings, harena.trans hopens.arena⟩
  · rename_i t
    simp only [Bool.and_eq_true, Bool.not_eq_true', List.isEmpty_eq_false_iff, Bool.and_eq_false_imp, beq_eq_false_iff_ne] at hchildren
    obtain ⟨⟨⟨hne, hplain⟩, hkeeps⟩, hdrops⟩ := hchildren
    have hwrite : inside = reading.write t ++ (Token.endTagText n ++ rest) := by
      rw [hinside, writtenAllBefore_text, hraw]
      cases reading <;> rfl
    have hsource : reading.write t ≠ [] := by
      cases reading <;> first | exact Token.escaped_ne_nil hne | exact hne
    have hends : b₁.arena.endsInText b₁.current = false := by
      rw [hcurrent, hopens.arena]
      exact Arena.endsInText_plant hstands.current_lt _
    have htakes : b₁.ready.TakesText t := takesText_of_text hready hmode t
    obtain ⟨c, hread, hfixed, harena⟩ := reads_text hstands₁.current_lt htakes hne hends
      (fun h => hdrops (hopens.drops h)) hsource fun fuel => Token.next_rawText hkeeps hplain hne rest
    obtain ⟨b', hread', hsettings, harena'⟩ := hend c (congrArg Builder.ready hfixed :)
      (harena ▸ Arena.keeps_plantNode _ _ _ hstands₁.current_lt) fun fuel hfuel => Token.next_rawEnd hkeeps hname hrest hfuel
    rw [hwrite] at hstart ⊢
    refine ⟨b', (hstart.trans hread).trans hread', hsettings, ?_⟩
    rw [harena', harena, hcurrent, hopens.arena]
    rfl
  · cases hchildren

end Builder

end LocalePages
