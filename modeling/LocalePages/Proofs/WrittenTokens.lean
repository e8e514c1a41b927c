import LocalePages.Markup.Token
import LocalePages.Proofs.References

/-!
# Tokens that are written are read back

Each kind of token is read from the way it is written, whatever text comes after it: tags (`Token.next_startTagText`,
`Token.next_endTagText`), comments, doctypes, and text before other markup. Names, values and texts have to be ones that reading leaves
as they are: names are in small letters, and nothing has NUL or a carriage return in it (`Text.isPlain`).
-/

namespace LocalePages

/-- Whether a text has neither NUL nor a carriage return in it, which are not read as themselves. -/
def Text.isPlain (t : Text) : Bool := t.all fun c => c != '\x00' && c != '\r'

/-- Whether a text is a name that a tag has. -/
def Text.isTagName (t : Text) : Bool :=
  t.head?.any Char.isAlpha && (t.all fun c => !Token.endsName c && c != '\x00') && Text.lower t == t

/-- Whether an attribute is one that is read as it is written. -/
def Attr.isPlain (a : Attr) : Bool :=
  a.space == .none && !a.name.isEmpty && (a.name.all fun c => !(Token.endsName c || c == '=') && c != '\x00') &&
    Text.lower a.name == a.name && Text.isPlain a.value

/-- Whether a text is one that a comment says. -/
def Text.isPlainComment (t : Text) : Bool :=
  Token.closing? (t ++ "-->") == some (t, []) && !Text.startsWith t ">" && !Text.startsWith t "->" && Text.isPlain t

/-- Whether a text is one that a doctype names. -/
def Text.isDoctypeName (t : Text) : Bool :=
  !t.isEmpty && (t.all fun c => !(isBlank c || c == '>') && c != '\x00') && Text.lower t == t

/-- The start tag of an element. -/
def startTagOf (tag : Text) (attrs : Attrs) : StartTag := ⟨tag, attrs.map fun a => (a.name, a.value), false⟩

namespace Text

variable {t : Text}

theorem not_null_of_isPlain (h : t.isPlain = true) : '\x00' ∉ t := fun hin => by
  have := List.all_eq_true.1 h _ hin
  cases this

theorem not_return_of_isPlain (h : t.isPlain = true) : '\r' ∉ t := fun hin => by
  have := List.all_eq_true.1 h _ hin
  cases this

/-- The name of a tag starts with a letter. -/
theorem exists_of_isTagName (h : t.isTagName = true) : ∃ c s, t = c :: s ∧ c.isAlpha = true := by
  cases t with
  | nil => cases h
  | cons c s => exact ⟨c, s, rfl, by simp only [isTagName, List.head?_cons, Option.any_some, Bool.and_eq_true] at h; exact h.1.1⟩

theorem endsName_of_isTagName (h : t.isTagName = true) : ∀ c ∈ t, (!Token.endsName c) = true := fun c hc => by
  simp only [isTagName, Bool.and_eq_true, List.all_eq_true] at h
  exact (h.1.2 c hc).1

theorem not_null_of_isTagName (h : t.isTagName = true) : '\x00' ∉ t := fun hin => by
  simp only [isTagName, Bool.and_eq_true, List.all_eq_true] at h
  have := (h.1.2 _ hin).2
  cases this

theorem lower_of_isTagName (h : t.isTagName = true) : t.lower = t := by
  simp only [isTagName, Bool.and_eq_true, beq_iff_eq] at h
  exact h.2

end Text

namespace Token

variable {t n name value rest : Text} {attrs : Attrs} {a : Attr} {acc : List (Text × Text)} {fuel : Nat} {sections : Bool}
  {reading : Reading}

/-- Where NUL is not, nothing stands for it. -/
theorem withoutNull_eq_self (h : '\x00' ∉ t) : withoutNull t = t := by
  rw [withoutNull]
  conv => rhs; rw [← List.map_id t]
  refine List.map_congr_left fun c hc => ?_
  have hne : c ≠ '\x00' := fun heq => h (heq ▸ hc)
  rw [if_neg hne]
  rfl

/-- Where no carriage return is, lines end as they are. -/
theorem withLineFeeds_eq_self (h : '\r' ∉ t) : withLineFeeds t = t := by
  induction t with
  | nil => rfl
  | cons c t ih =>
    obtain ⟨hc, ht⟩ := not_or.1 (mt List.mem_cons.2 h)
    unfold withLineFeeds
    split
    · rename_i heq
      exact absurd (List.cons.inj heq).1.symm hc
    · rename_i heq
      exact absurd (List.cons.inj heq).1.symm hc
    · rename_i heq
      obtain ⟨rfl, rfl⟩ := List.cons.inj heq
      rw [ih ht]
    · cases ‹_ = []›

theorem plain_eq_self (h : t.isPlain = true) : plain t = t := by
  rw [plain, withLineFeeds_eq_self (Text.not_return_of_isPlain h), withoutNull_eq_self (Text.not_null_of_isPlain h)]

/-! ## Tags -/

/-- A value is read up to its closing quote. -/
theorem value?_escaped (h : value.isPlain = true) (hfuel : (value.flatMap escapedAttrChar ++ '"' :: rest).length ≤ fuel) :
    value? fuel ('"' :: (value.flatMap escapedAttrChar ++ '"' :: rest)) = some (value, rest) := by
  have hquote : ∀ c ∈ value.flatMap escapedAttrChar, (c == '"') = false := by
    intro c hc
    obtain ⟨d, -, hd⟩ := List.mem_flatMap.1 hc
    by_contra hcontra
    obtain rfl : c = '"' := by simpa using hcontra
    unfold escapedAttrChar at hd
    split_ifs at hd with h1 h2 h3
    · revert hd
      decide
    · revert hd
      decide
    · revert hd
      decide
    · exact h3 (List.mem_singleton.1 hd).symm
  have hvalue : Reference.resolveUntil (· == '"') true fuel (value.flatMap escapedAttrChar ++ '"' :: rest) =
      (value, '"' :: rest) :=
    Reference.escapes_escapedAttrChar.resolveUntil hquote (Or.inr rfl) (Text.not_return_of_isPlain h) (by simp) hfuel
  have hfrom : fromValue ('"' :: (value.flatMap escapedAttrChar ++ '"' :: rest)) =
      '"' :: (value.flatMap escapedAttrChar ++ '"' :: rest) := rfl
  rw [value?, hfrom]
  simp only [hvalue, withoutNull_eq_self (Text.not_null_of_isPlain h)]

/-- What a plain attribute is. -/
theorem facts_of_isPlain (h : a.isPlain = true) :
    a.space = .none ∧ a.name ≠ [] ∧ (∀ c ∈ a.name, (!(endsName c || c == '=')) = true) ∧ '\x00' ∉ a.name ∧
      Text.lower a.name = a.name ∧ a.value.isPlain = true := by
  simp only [Attr.isPlain, Bool.and_eq_true, beq_iff_eq, List.all_eq_true] at h
  obtain ⟨⟨⟨⟨hspace, hname⟩, hchars⟩, hlower⟩, hvalue⟩ := h
  refine ⟨hspace, by simpa using hname, fun c hc => (hchars c hc).1, fun hin => ?_, hlower, hvalue⟩
  have := (hchars _ hin).2
  cases this

/-- How a plain attribute is written. -/
theorem written_of_isPlain (h : a.isPlain = true) :
    a.written = ' ' :: (a.name ++ '=' :: '"' :: (a.value.flatMap escapedAttrChar ++ ['"'])) := by
  obtain ⟨hspace, -⟩ := facts_of_isPlain h
  have hmark : a.mark = [] := by
    rw [Attr.mark, hspace]
    rfl
  have hequals : ("=\"".toList : Text) = ['=', '"'] := rfl
  have hblank : (" ".toList : Text) = [' '] := rfl
  have hquote : ("\"".toList : Text) = ['"'] := rfl
  rw [Attr.written, hmark, hequals, hblank, hquote]
  simp

/-- An attribute is read from where it is written. -/
theorem attrs?_written (h : a.isPlain = true) (hfuel : (a.written ++ t).length ≤ fuel + 1) :
    attrs? (fuel + 1) acc (a.written ++ t) = attrs? fuel (addAttr acc a.name a.value) t := by
  obtain ⟨-, hne, hends, hnull, hlower, hvalue⟩ := facts_of_isPlain h
  rw [written_of_isPlain h] at hfuel ⊢
  obtain ⟨c, s, hname⟩ := List.exists_cons_of_ne_nil hne
  have hc := hends c (by rw [hname]; exact List.mem_cons_self)
  have hblank : isBlank c = false := by
    cases hb : isBlank c with
    | false => rfl
    | true => simp [endsName, hb] at hc
  have hclose : c ≠ '>' := by
    rintro rfl
    cases hc
  have hslash : c ≠ '/' := by
    rintro rfl
    cases hc
  have hvalueFuel : (a.value.flatMap escapedAttrChar ++ '"' :: t).length ≤ fuel := by
    simp only [List.length_cons, List.length_append, List.length_nil] at hfuel ⊢
    omega
  have hdrop : List.dropWhile isBlank (' ' :: (a.name ++ '=' :: '"' :: (a.value.flatMap escapedAttrChar ++ ['"'])) ++ t) =
      c :: (s ++ '=' :: '"' :: (a.value.flatMap escapedAttrChar ++ '"' :: t)) := by
    rw [hname]
    simp only [List.cons_append, List.append_assoc, List.nil_append]
    rw [List.dropWhile_cons_of_pos rfl, List.dropWhile_cons_of_neg (by simp [hblank])]
  have hs : ∀ d ∈ s, (!(endsName d || d == '=')) = true := fun d hd => hends d (by rw [hname]; exact List.mem_cons_of_mem _ hd)
  have hequals : List.dropWhile isBlank ('=' :: '"' :: (a.value.flatMap escapedAttrChar ++ '"' :: t)) =
      '=' :: '"' :: (a.value.flatMap escapedAttrChar ++ '"' :: t) := rfl
  conv => lhs; unfold attrs?
  rw [hdrop]
  split
  · cases ‹_ :: _ = []›
  · exact absurd (List.cons.inj ‹c :: _ = '>' :: _›).1 hclose
  · exact absurd (List.cons.inj ‹c :: _ = '/' :: _›).1 hslash
  · exact absurd (List.cons.inj ‹c :: _ = '/' :: _›).1 hslash
  · rename_i heq
    obtain ⟨rfl, rfl⟩ := List.cons.inj heq
    dsimp only
    rw [List.takeWhile_append_of_pos hs, List.dropWhile_append_of_pos hs, List.takeWhile_cons_of_neg (by simp),
      List.dropWhile_cons_of_neg (by simp), List.append_nil, ← hname, withoutNull_eq_self hnull, hlower, hequals]
    simp only [value?_escaped hvalue hvalueFuel]

/-- All attributes of a tag are read. -/
theorem attrs?_flatMap_written (h : ∀ a ∈ attrs, a.isPlain = true) (hnames : (acc.map Prod.fst ++ attrs.map Attr.name).Nodup)
    (hfuel : (attrs.flatMap Attr.written ++ '>' :: rest).length ≤ fuel) :
    attrs? fuel acc (attrs.flatMap Attr.written ++ '>' :: rest) =
      some (acc ++ attrs.map fun a => (a.name, a.value), false, rest) := by
  induction attrs generalizing acc fuel with
  | nil =>
    cases fuel with
    | zero => cases hfuel
    | succ fuel =>
      rw [List.map_nil, List.append_nil]
      rfl
  | cons a attrs ih =>
    rw [List.flatMap_cons, List.append_assoc] at hfuel ⊢
    have hplain := h a List.mem_cons_self
    cases fuel with
    | zero =>
      rw [written_of_isPlain hplain] at hfuel
      cases hfuel
    | succ fuel =>
      have hnew : addAttr acc a.name a.value = acc ++ [(a.name, a.value)] := by
        rw [addAttr, if_neg]
        intro hany
        obtain ⟨⟨m, w⟩, hin, heq⟩ := List.any_eq_true.1 hany
        obtain rfl : m = a.name := by simpa using heq
        rw [List.map_cons, List.nodup_append] at hnames
        exact hnames.2.2 _ (List.mem_map_of_mem hin) _ List.mem_cons_self rfl
      have hlength : (a.written).length = a.name.length + (a.value.flatMap escapedAttrChar).length + 4 := by
        rw [written_of_isPlain hplain]
        simp
        omega
      rw [List.length_append, hlength] at hfuel
      rw [attrs?_written hplain (by rw [List.length_append, hlength]; omega), hnew,
        ih (fun b hb => h b (List.mem_cons_of_mem _ hb)) (by simpa using hnames) (by omega)]
      simp

/-- The end of a start tag ends its name. -/
theorem exists_endsName (h : ∀ a ∈ attrs, a.isPlain = true) (rest : Text) :
    ∃ c s, attrs.flatMap Attr.written ++ '>' :: rest = c :: s ∧ endsName c = true := by
  cases attrs with
  | nil => exact ⟨'>', rest, rfl, rfl⟩
  | cons a attrs =>
    rw [List.flatMap_cons, written_of_isPlain (h a List.mem_cons_self)]
    exact ⟨' ', _, rfl, rfl⟩

/-- A tag is read from its name on. -/
theorem tag?_written (hname : name.isTagName = true) (hattrs : ∀ a ∈ attrs, a.isPlain = true)
    (hnames : (attrs.map Attr.name).Nodup) (hfuel : (attrs.flatMap Attr.written ++ '>' :: rest).length ≤ fuel) :
    tag? fuel (name ++ (attrs.flatMap Attr.written ++ '>' :: rest)) = some (startTagOf name attrs, rest) := by
  obtain ⟨c, s, hrest, hc⟩ := exists_endsName hattrs rest
  have hends := Text.endsName_of_isTagName hname
  have htake : (name ++ (attrs.flatMap Attr.written ++ '>' :: rest)).takeWhile (fun c => !endsName c) = name := by
    rw [List.takeWhile_append_of_pos hends, hrest, List.takeWhile_cons_of_neg (by simp [hc]), List.append_nil]
  have hdrop : (name ++ (attrs.flatMap Attr.written ++ '>' :: rest)).dropWhile (fun c => !endsName c) =
      attrs.flatMap Attr.written ++ '>' :: rest := by
    rw [List.dropWhile_append_of_pos hends, hrest, List.dropWhile_cons_of_neg (by simp [hc])]
  rw [tag?, htake, hdrop, withoutNull_eq_self (Text.not_null_of_isTagName hname), Text.lower_of_isTagName hname,
    attrs?_flatMap_written hattrs (by simpa using hnames) hfuel]
  rfl

/-- A bracket that starts markup. -/
theorem next_of_opensMarkup (h : opensMarkup t = true) : next fuel .ordinary sections ('<' :: t) = markup fuel sections t := by
  have hstep : next fuel .ordinary sections ('<' :: t) =
      if true && opensMarkup t then markup fuel sections t
      else ⟨some (stretch true (textRun ('<' :: t)).1), .ordinary, (textRun ('<' :: t)).2⟩ := rfl
  rw [hstep, h]
  rfl

/-- A bracket before a letter starts markup. -/
theorem opensMarkup_of_isAlpha {c : Char} (hc : c.isAlpha = true) (t : Text) : opensMarkup (c :: t) = true := by
  unfold opensMarkup
  split
  · rename_i heq
    rw [(List.cons.inj heq).1] at hc
    cases hc
  · rename_i heq
    rw [← (List.cons.inj heq).1, hc]
    rfl
  · cases ‹_ :: _ = []›

/-- What starts with a letter is read as a tag. -/
theorem markup_of_isAlpha {c : Char} (hc : c.isAlpha = true) {tag : StartTag} (h : tag? fuel (c :: t) = some (tag, rest)) :
    markup fuel sections (c :: t) = .of (.start tag, rest) := by
  have hne : ∀ d : Char, d.isAlpha = false → c ≠ d := fun d hd heq => by rw [heq, hd] at hc; cases hc
  unfold markup
  split
  · rename_i heq
    exact absurd (List.cons.inj heq).1 (hne '!' rfl)
  · rename_i heq
    exact absurd (List.cons.inj heq).1 (hne '/' rfl)
  · rename_i heq
    exact absurd (List.cons.inj heq).1 (hne '/' rfl)
  · rename_i heq
    exact absurd (List.cons.inj heq).1 (hne '?' rfl)
  · rw [h]

/-- A start tag and what comes after it. -/
theorem startTagText_append (n : ElementName) (attrs : Attrs) (rest : Text) :
    startTagText n attrs ++ rest = '<' :: (n.tag ++ (attrs.flatMap Attr.written ++ '>' :: rest)) := by
  have hopen : ("<".toList : Text) = ['<'] := rfl
  have hclose : (">".toList : Text) = ['>'] := rfl
  rw [startTagText, hopen, hclose]
  simp

/-- A start tag is read from the way it is written. -/
theorem next_startTagText {n : ElementName} (hname : n.tag.isTagName = true) (hattrs : ∀ a ∈ attrs, a.isPlain = true)
    (hnames : (attrs.map Attr.name).Nodup) (hfuel : (startTagText n attrs ++ rest).length ≤ fuel) :
    next fuel .ordinary sections (startTagText n attrs ++ rest) = ⟨some (.start (startTagOf n.tag attrs)), .ordinary, rest⟩ := by
  rw [startTagText_append] at hfuel ⊢
  have hlength : (attrs.flatMap Attr.written ++ '>' :: rest).length ≤ fuel := by
    rw [List.length_cons, List.length_append] at hfuel
    omega
  have htag := tag?_written hname hattrs hnames hlength
  obtain ⟨c, s, hc, halpha⟩ := Text.exists_of_isTagName hname
  rw [hc, List.cons_append] at htag ⊢
  rw [next_of_opensMarkup (opensMarkup_of_isAlpha halpha _), markup_of_isAlpha halpha htag]
  rfl

/-- The end tag of an element as it is written. -/
def endTagText (tag : Text) : Text := '<' :: '/' :: (tag ++ ['>'])

/-- An end tag is read from its name on. -/
theorem endTag_written (hname : name.isTagName = true) (hfuel : (name ++ '>' :: rest).length ≤ fuel) :
    endTag fuel (name ++ '>' :: rest) = ⟨some (.close name), .ordinary, rest⟩ := by
  have htag : tag? fuel (name ++ '>' :: rest) = some (startTagOf name [], rest) :=
    tag?_written hname (List.forall_mem_nil _) List.nodup_nil (by simp at hfuel ⊢; omega)
  rw [endTag, htag]
  rfl

/-- An end tag is read from the way it is written. -/
theorem next_endTagText (hname : name.isTagName = true) (hfuel : (endTagText name ++ rest).length ≤ fuel) :
    next fuel .ordinary sections (endTagText name ++ rest) = ⟨some (.close name), .ordinary, rest⟩ := by
  have hlength : (name ++ '>' :: rest).length ≤ fuel := by
    simp only [endTagText, List.cons_append, List.length_cons, List.length_append, List.length_nil] at hfuel ⊢
    omega
  have hend := endTag_written hname hlength
  obtain ⟨c, s, rfl, halpha⟩ := Text.exists_of_isTagName hname
  have hne : c ≠ '>' := by
    rintro rfl
    cases halpha
  have htext : endTagText (c :: s) ++ rest = '<' :: '/' :: c :: (s ++ '>' :: rest) := by simp [endTagText]
  have hmarkup : markup fuel sections ('/' :: c :: (s ++ '>' :: rest)) =
      if c.isAlpha then endTag fuel (c :: (s ++ '>' :: rest))
      else .of (.comment (strayBody (c :: (s ++ '>' :: rest))).1, (strayBody (c :: (s ++ '>' :: rest))).2) := by
    unfold markup
    split
    · cases ‹ '/' :: _ = '!' :: _›
    · rename_i heq
      exact absurd (List.cons.inj (List.cons.inj heq).2).1 hne
    · rename_i heq
      cases heq
      rfl
    · cases ‹ '/' :: _ = '?' :: _›
    · rename_i hother _
      exact (hother _ _ rfl).elim
  rw [htext, next_of_opensMarkup rfl, hmarkup, if_pos halpha]
  exact hend

/-! ## Text -/

/-- Whether a text goes on with markup. -/
def StartsMarkup (t : Text) : Prop := ∃ u, t = '<' :: u ∧ opensMarkup u = true

theorem startsMarkup_endTagText (hname : name.isTagName = true) (rest : Text) : StartsMarkup (endTagText name ++ rest) := by
  obtain ⟨c, s, rfl, -⟩ := Text.exists_of_isTagName hname
  exact ⟨_, rfl, rfl⟩

theorem startsMarkup_startTagText {n : ElementName} (hname : n.tag.isTagName = true) (attrs : Attrs) (rest : Text) :
    StartsMarkup (startTagText n attrs ++ rest) := by
  rw [startTagText_append]
  refine ⟨_, rfl, ?_⟩
  obtain ⟨c, s, hc, halpha⟩ := Text.exists_of_isTagName hname
  rw [hc, List.cons_append]
  exact opensMarkup_of_isAlpha halpha _

/-- Escaped text has no bracket in it, and no NUL unless the text has. -/
theorem of_mem_escaped {c : Char} (h : c ∈ t.flatMap escapedTextChar) : c ≠ '<' ∧ (c = '\x00' → '\x00' ∈ t) := by
  obtain ⟨d, hd, hc⟩ := List.mem_flatMap.1 h
  have hword (word : Text) (hword : ∀ d ∈ word, d ≠ '<' ∧ d ≠ '\x00') (hin : c ∈ word) :
      c ≠ '<' ∧ (c = '\x00' → '\x00' ∈ t) := ⟨(hword c hin).1, fun heq => absurd heq (hword c hin).2⟩
  unfold escapedTextChar at hc
  split_ifs at hc with h1 h2 h3 h4
  · exact hword "&amp;" (by decide) hc
  · exact hword "&nbsp;" (by decide) hc
  · exact hword "&lt;" (by decide) hc
  · exact hword "&gt;" (by decide) hc
  · rw [List.mem_singleton.1 hc]
    exact ⟨h3, fun heq => heq ▸ hd⟩

theorem textRun_append (h : ∀ c ∈ t, c ≠ '<' ∧ c ≠ '\x00') (hrest : StartsMarkup rest) : textRun (t ++ rest) = (t, rest) := by
  induction t with
  | nil =>
    obtain ⟨u, rfl, hu⟩ := hrest
    rw [List.nil_append, textRun, if_pos (by simp [hu])]
  | cons c t ih =>
    obtain ⟨hbracket, hnull⟩ := h c List.mem_cons_self
    rw [List.cons_append, textRun, if_neg (by simp [hbracket, hnull]), ih fun d hd => h d (List.mem_cons_of_mem _ hd)]

/-- Escaped text is not empty unless the text is. -/
theorem escaped_ne_nil (h : t ≠ []) : t.flatMap escapedTextChar ≠ [] := by
  obtain ⟨c, t, rfl⟩ := List.exists_cons_of_ne_nil h
  rw [List.flatMap_cons]
  rcases Reference.escapes_escapedTextChar c with ⟨name, -, hescape⟩ | ⟨hescape, -⟩ <;> rw [hescape] <;> simp

/-- A stretch of escaped text says the text. -/
theorem stretch_escaped (h : t.isPlain = true) : stretch true (t.flatMap escapedTextChar) = .characters t false := by
  have hreturn := Text.not_return_of_isPlain h
  rw [stretch, if_pos rfl, Reference.resolve_escaped false hreturn, Reference.startsBare_escaped hreturn,
    withoutNull_eq_self (Text.not_null_of_isPlain h)]

/-- Text is read up to the next markup. -/
theorem next_escaped (h : t.isPlain = true) (hne : t ≠ []) (hrest : StartsMarkup rest) :
    next fuel .ordinary sections (t.flatMap escapedTextChar ++ rest) = ⟨some (.characters t false), .ordinary, rest⟩ := by
  have hchars : ∀ c ∈ t.flatMap escapedTextChar, c ≠ '<' ∧ c ≠ '\x00' := fun c hc =>
    ⟨(of_mem_escaped hc).1, fun heq => Text.not_null_of_isPlain h ((of_mem_escaped hc).2 heq)⟩
  have hrun := textRun_append hchars hrest
  have hstretch := stretch_escaped h
  obtain ⟨c, s, hc⟩ := List.exists_cons_of_ne_nil (escaped_ne_nil hne)
  rw [hc] at hchars hrun hstretch ⊢
  obtain ⟨hbracket, hnull⟩ := hchars c List.mem_cons_self
  rw [List.cons_append] at hrun ⊢
  unfold next
  dsimp only
  split
  · cases ‹_ :: _ = []›
  · exact absurd (List.cons.inj ‹c :: _ = '\x00' :: _›).1 hnull
  · rename_i heq
    obtain ⟨rfl, rfl⟩ := List.cons.inj heq
    rw [if_neg (by simp [hbracket]), hrun]
    dsimp only
    rw [hstretch]

/-! ## Comments and doctypes -/

/-- What closes a comment has three characters at least. -/
theorem length_of_closing? {text after : Text} (h : closing? t = some (text, after)) : 3 ≤ t.length := by
  induction t generalizing text after with
  | nil => cases h
  | cons c t ih =>
    unfold closing? at h
    split at h
    · cases ‹_ :: _ = []›
    · rename_i heq
      rw [heq]
      simp
    · rename_i heq
      rw [heq]
      simp
    · rename_i heq
      cases heq
      obtain ⟨⟨text', after'⟩, hfound, -⟩ := Option.map_eq_some_iff.1 h
      have := ih hfound
      rw [List.length_cons]
      omega

/-- A comment is closed in the same place whatever comes after it. -/
theorem closing?_append {text after : Text} (h : closing? t = some (text, after)) (rest : Text) :
    closing? (t ++ rest) = some (text, after ++ rest) := by
  induction t generalizing text after with
  | nil => cases h
  | cons c t ih =>
    unfold closing? at h
    split at h
    · cases ‹_ :: _ = []›
    · rename_i heq
      obtain ⟨rfl, rfl⟩ := List.cons.inj heq
      cases h
      rfl
    · rename_i heq
      obtain ⟨rfl, rfl⟩ := List.cons.inj heq
      cases h
      rfl
    · rename_i hclose hclose' heq
      obtain ⟨rfl, rfl⟩ := List.cons.inj heq
      obtain ⟨⟨text', after'⟩, hfound, hpair⟩ := Option.map_eq_some_iff.1 h
      obtain ⟨rfl, rfl⟩ := Prod.mk.inj hpair
      -- the characters that could have been the start of a closing are all there
      have hlength := length_of_closing? hfound
      obtain ⟨d, e, f, t, rfl⟩ : ∃ d e f u, t = d :: e :: f :: u := by
        rcases t with _ | ⟨d, _ | ⟨e, _ | ⟨f, u⟩⟩⟩
        · cases hfound
        · simp at hlength
        · simp at hlength
        · exact ⟨d, e, f, u, rfl⟩
      have hstep : closing? (c :: (d :: e :: f :: t ++ rest)) =
          (closing? (d :: e :: f :: t ++ rest)).map fun found => (c :: found.1, found.2) := by
        conv => lhs; unfold closing?
        split
        · cases ‹_ :: _ = []›
        · rename_i heq
          cases heq
          exact (hclose _ rfl rfl).elim
        · rename_i heq
          cases heq
          exact (hclose' _ rfl rfl).elim
        · rename_i heq
          cases heq
          rfl
      rw [List.cons_append, hstep, ih hfound]
      rfl

/-- A comment is read from the way it is written. -/
theorem next_comment (h : t.isPlainComment = true) (rest : Text) :
    next fuel .ordinary sections ("<!--".toList ++ t ++ ("-->".toList ++ rest)) = ⟨some (.comment t), .ordinary, rest⟩ := by
  simp only [Text.isPlainComment, Bool.and_eq_true, beq_iff_eq, Bool.not_eq_true'] at h
  obtain ⟨⟨⟨hclosing, hgreater⟩, harrow⟩, hplain⟩ := h
  have hread : closing? (t ++ "-->" ++ rest) = some (t, rest) := closing?_append hclosing rest
  have hbody : commentBody (t ++ "-->" ++ rest) = (t, rest) := by
    unfold commentBody
    split
    · rename_i heq
      cases t with
      | nil => cases heq
      | cons c t =>
        obtain rfl := (List.cons.inj heq).1
        cases hgreater
    · rename_i heq
      match t, heq with
      | [], heq => cases heq
      | [c], heq => cases heq
      | c :: d :: t, heq =>
        obtain ⟨rfl, htail⟩ := List.cons.inj heq
        obtain rfl := (List.cons.inj htail).1
        cases harrow
    · rw [hread]
      dsimp only
      rw [plain_eq_self hplain]
  have htext : "<!--".toList ++ t ++ ("-->".toList ++ rest) = '<' :: '!' :: '-' :: '-' :: (t ++ "-->" ++ rest) := by
    rw [List.append_assoc, ← List.append_assoc t]
    rfl
  have hmarkup : markup fuel sections ('!' :: '-' :: '-' :: (t ++ "-->" ++ rest)) =
      .of (.comment (commentBody (t ++ "-->" ++ rest)).1, (commentBody (t ++ "-->" ++ rest)).2) := rfl
  rw [htext, next_of_opensMarkup rfl, hmarkup, hbody]
  rfl

/-- A doctype is read from the way it is written. -/
theorem next_doctype (h : name.isDoctypeName = true) (rest : Text) :
    next fuel .ordinary sections ("<!DOCTYPE ".toList ++ name ++ (">".toList ++ rest)) =
      ⟨some (.doctype ⟨some name, none, none, false⟩), .ordinary, rest⟩ := by
  simp only [Text.isDoctypeName, Bool.and_eq_true, beq_iff_eq, Bool.not_eq_true', List.all_eq_true] at h
  obtain ⟨⟨hne, hchars⟩, hlower⟩ := h
  have hends : ∀ c ∈ name, (!(isBlank c || c == '>')) = true := fun c hc => congrArg not (hchars c hc).1
  have hnull : '\x00' ∉ name := fun hin => by
    have := (hchars _ hin).2
    cases this
  have hbody : doctypeBody (' ' :: (name ++ '>' :: rest)) = (⟨some name, none, none, false⟩, rest) := by
    have htake : (name ++ '>' :: rest).takeWhile (fun c => !(isBlank c || c == '>')) = name := by
      rw [List.takeWhile_append_of_pos hends, List.takeWhile_cons_of_neg (by simp), List.append_nil]
    have hdrop : (name ++ '>' :: rest).dropWhile (fun c => !(isBlank c || c == '>')) = '>' :: rest := by
      rw [List.dropWhile_append_of_pos hends, List.dropWhile_cons_of_neg (by simp)]
    obtain ⟨c, s, rfl⟩ := List.exists_cons_of_ne_nil (show name ≠ [] by simpa using hne)
    have hc : ¬(isBlank c = true ∨ c = '>') := by simpa using hends c List.mem_cons_self
    have hblanks : List.dropWhile isBlank (' ' :: (c :: s ++ '>' :: rest)) = c :: s ++ '>' :: rest := by
      rw [List.dropWhile_cons_of_pos rfl, List.cons_append, List.dropWhile_cons_of_neg (fun h => hc (Or.inl h))]
    unfold doctypeBody
    rw [hblanks]
    split
    · cases ‹_ :: _ = []›
    · exact absurd (List.cons.inj ‹c :: _ = '>' :: _›).1 fun h => hc (Or.inr h)
    · dsimp only
      rw [htake, hdrop, withoutNull_eq_self hnull, hlower]
      rfl
  have htext : "<!DOCTYPE ".toList ++ name ++ (">".toList ++ rest) =
      '<' :: '!' :: ("DOCTYPE".toList ++ ' ' :: (name ++ '>' :: rest)) := by
    rw [List.append_assoc]
    rfl
  have hmarkup : markup fuel sections ('!' :: ("DOCTYPE".toList ++ ' ' :: (name ++ '>' :: rest))) =
      .of (.doctype (doctypeBody (' ' :: (name ++ '>' :: rest))).1, (doctypeBody (' ' :: (name ++ '>' :: rest))).2) := rfl
  rw [htext, next_of_opensMarkup rfl, hmarkup, hbody]
  rfl

end Token

end LocalePages
