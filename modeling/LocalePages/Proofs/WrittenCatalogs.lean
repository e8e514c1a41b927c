import LocalePages.Catalog.Reader
import LocalePages.Proofs.Lines
import LocalePages.Proofs.Literals
import Mathlib.Data.List.Forall2

/-!
# Catalogs that are written are read back

The form that catalogs are written in has two levels. A line says something: a field with the first part of its value, a further
part, flags, a comment, nothing (`CatalogLine.Written`). A message is a run of such lines: its comments and flags, then its
fields in order, with every value cut into parts at will (`Message.Lines`); between two messages there may be blank lines or none.
Whatever is written so is read as the messages that it was written from (`Catalog.parse_of_written`).

Where a message ends is not marked by itself. At such a boundary (`CatalogProgress.Closed`) the first line of the next message does
what a blank line would have done (`CatalogProgress.add_finish`).
-/

namespace LocalePages

/-! ## Literals -/

namespace Literal

/-- A character as it is written between the quotes of a catalog. -/
def catalogChar (c : Char) : Text :=
  match c with
  | '\\' => "\\\\"
  | '"' => "\\\""
  | '\n' => "\\n"
  | '\t' => "\\t"
  | '\r' => "\\r"
  | '\x07' => "\\a"
  | '\x08' => "\\b"
  | '\x0c' => "\\f"
  | '\x0b' => "\\v"
  | other => [other]

/-- A text as a literal of a catalog. -/
def inCatalog (t : Text) : Text := '"' :: (t.flatMap catalogChar ++ ['"'])

/-- A character is written with a backslash before a letter that means it, or as itself, and then it is neither a backslash nor a
quote nor a line feed. -/
theorem catalogChar_cases (c : Char) :
    (∃ letter, catalogChar c = ['\\', letter] ∧ escaped letter = c ∧ letter ≠ '\n') ∨
      (catalogChar c = [c] ∧ c ≠ '\\' ∧ c ≠ '"' ∧ c ≠ '\n') := by
  unfold catalogChar
  split
  all_goals first
    | exact Or.inl ⟨_, rfl, rfl, by decide⟩
    | exact Or.inr ⟨rfl, by assumption, by assumption, by assumption⟩

/-- A character is spelled as a catalog has it. -/
theorem spells_catalogChar (c : Char) : Spells (catalogChar c) c :=
  (catalogChar_cases c).imp (fun ⟨letter, hc, hletter, _⟩ => ⟨letter, hc, hletter⟩) fun ⟨hc, hback, hquote, _⟩ => ⟨hc, hback, hquote⟩

/-- A literal of a catalog is read back. -/
theorem read?_inCatalog (t : Text) : read? (inCatalog t) = some t := read?_of_spells spells_catalogChar t

/-- No line ends inside a literal of a catalog. -/
theorem newline_not_mem_inCatalog (t : Text) : '\n' ∉ inCatalog t := by
  simp only [inCatalog, List.mem_cons, List.mem_append, List.mem_flatMap, List.not_mem_nil, or_false, not_or, not_exists, not_and]
  refine ⟨by decide, fun c _ => ?_, by decide⟩
  obtain ⟨letter, hc, -, hletter⟩ | ⟨hc, -, -, hnewline⟩ := catalogChar_cases c
  · simp [hc, hletter.symm]
  · simp [hc, hnewline.symm]

end Literal

/-! ## Lines as they are written -/

/-- Blanks on a line: white space, but no line feed. -/
def Text.IsPadding (t : Text) : Prop := ∀ c ∈ t, isWide c = true ∧ c ≠ '\n'

instance (t : Text) : Decidable t.IsPadding := inferInstanceAs (Decidable (∀ c ∈ t, isWide c = true ∧ c ≠ '\n'))

/-- A flag: a text on one line without a comma, and without white space at its ends. -/
structure Text.IsFlag (t : Text) : Prop where
  ne_nil : t ≠ []
  head : ∀ c ∈ t.head?, isWide c = false
  last : ∀ c ∈ t.getLast?, isWide c = false
  comma : ',' ∉ t
  newline : '\n' ∉ t

/-- Flags as they are written, with commas between them and blanks around them. -/
inductive FlagList : List Text → Text → Prop
  | nil {pad : Text} : pad.IsPadding → FlagList [] pad
  | last {before flag after : Text} : before.IsPadding → flag.IsFlag → after.IsPadding →
      FlagList [flag] (before ++ flag ++ after)
  | cons {before flag after : Text} {flags : List Text} {t : Text} : before.IsPadding → flag.IsFlag → after.IsPadding →
      FlagList flags t → FlagList (flag :: flags) (before ++ flag ++ after ++ ',' :: t)

/-- The keywords that a field is written with. -/
inductive MessageField.Keyword : MessageField → Text → Prop
  | context : Keyword .context "msgctxt"
  | id : Keyword .id "msgid"
  | plural : Keyword .plural "msgid_plural"
  | form : Keyword .form "msgstr"
  | numbered (n : Nat) : Keyword .form ("msgstr[" ++ Text.ofNat n ++ "]")

/-- What stands before the keyword or the value on a line of a live or an obsolete message. -/
inductive ObsoleteMark : Bool → Text → Prop
  | live : ObsoleteMark false []
  | obsolete {pad : Text} : pad.IsPadding → ObsoleteMark true ("#~ " ++ pad)

namespace CatalogLine

/-- How a line of a message says what it says, apart from the blanks around it. -/
inductive Content (obsolete : Bool) : CatalogLine → Text → Prop
  | comment {t : Text} : '\n' ∉ t → t.head? ≠ some ',' → t.head? ≠ some '~' → Content obsolete .comment ('#' :: t)
  | flags {names : List Text} {t : Text} : FlagList names t → Content obsolete (.flags names) ('#' :: ',' :: t)
  | more {mark value : Text} : ObsoleteMark obsolete mark → Content obsolete (.more value) (mark ++ Literal.inCatalog value)
  | field {mark keyword gap value : Text} {name : MessageField} : ObsoleteMark obsolete mark → name.Keyword keyword →
      gap.IsPadding → gap ≠ [] → Content obsolete (.field obsolete name value) (mark ++ (keyword ++ gap ++ Literal.inCatalog value))

/-- A line of a message as it is written, without its end. -/
def Written (obsolete : Bool) (line : CatalogLine) (raw : Text) : Prop :=
  ∃ before content after, before.IsPadding ∧ Content obsolete line content ∧ after.IsPadding ∧ raw = before ++ content ++ after

end CatalogLine

/-! ## Messages and catalogs as they are written -/

namespace Message

/-- The lines of the comments and flags of a message, with its flags in order. -/
inductive Notes : List Text → List CatalogLine → Prop
  | nil : Notes [] []
  | comment {flags : List Text} {lines : List CatalogLine} : Notes flags lines → Notes flags (.comment :: lines)
  | flags {flags : List Text} {lines : List CatalogLine} (names : List Text) : Notes flags lines →
      Notes (names ++ flags) (.flags names :: lines)

/-- The fields that a message has, in order. -/
def fields (m : Message) : List (MessageField × Text) :=
  m.context.toList.map (.context, ·) ++ (.id, m.id) :: (m.plural.toList.map (.plural, ·) ++ m.forms.map (.form, ·))

/-- The lines of a field, whose value is cut into parts. -/
inductive FieldLines (obsolete : Bool) : MessageField × Text → List CatalogLine → Prop
  | mk (name : MessageField) (first : Text) (more : List Text) :
      FieldLines obsolete (name, first ++ more.flatten) (.field obsolete name first :: more.map .more)

/-- The lines of a message. It has a form. -/
inductive Lines (m : Message) : List CatalogLine → Prop
  | mk {notes : List CatalogLine} {parts : List (List CatalogLine)} : m.forms ≠ [] → Notes m.flags notes →
      List.Forall₂ (FieldLines m.obsolete) m.fields parts → Lines m (notes ++ parts.flatten)

end Message

namespace Catalog

/-- The lines of messages as they are written, with any number of blank lines before, between and after them. -/
inductive WrittenLines : List Message → List Text → Prop
  | nil : WrittenLines [] []
  | blank {messages : List Message} {raws : List Text} {pad : Text} : pad.IsPadding → WrittenLines messages raws →
      WrittenLines messages (pad :: raws)
  | message {m : Message} {messages : List Message} {lines : List CatalogLine} {raws rest : List Text} : m.Lines lines →
      List.Forall₂ (CatalogLine.Written m.obsolete) lines raws → WrittenLines messages rest →
      WrittenLines (m :: messages) (raws ++ rest)

/-- Lines with their ends, each a line feed with or without a carriage return before it. The last line may have no end. -/
inductive Laid : List Text → Text → Prop
  | nil : Laid [] []
  | last {raw : Text} : raw ≠ [] → Laid [raw] raw
  | lf {raw t : Text} {raws : List Text} : Laid raws t → Laid (raw :: raws) (raw ++ '\n' :: t)
  | crlf {raw t : Text} {raws : List Text} : Laid raws t → Laid (raw :: raws) (raw ++ '\r' :: '\n' :: t)

/-- A catalog as it is written. -/
def Written (c : Catalog) (t : Text) : Prop := ∃ raws, WrittenLines c.messages raws ∧ Laid raws t

end Catalog

/-! ## Reading a line -/

namespace Text

/-- A text without white space at its ends is left as it is. -/
theorem trim_eq_self {t : Text} (hhead : ∀ c ∈ t.head?, isWide c = false) (hlast : ∀ c ∈ t.getLast?, isWide c = false) :
    trim t = t := by
  cases t with
  | nil => rfl
  | cons c t =>
    rw [trim_cons t (hhead c rfl)]
    rcases List.eq_nil_or_concat t with rfl | ⟨before, e, rfl⟩
    · rfl
    · rw [List.concat_eq_append] at hlast ⊢
      have he : isWide e = false := hlast e (by simp [List.getLast?_cons])
      rw [dropEndWhile_append_cons before [] he]
      rfl

/-- Blanks around a text are not looked at. -/
theorem trim_padded {before after : Text} (t : Text) (hbefore : before.IsPadding) (hafter : after.IsPadding) :
    trim (before ++ t ++ after) = trim t := by
  rw [trim_append _ fun c hc => (hafter c hc).1, trim_prepend _ fun c hc => (hbefore c hc).1]

/-- The end of a line is not looked at. -/
theorem trim_chomp (t : Text) : trim (chomp t) = trim t := by
  unfold chomp dropTail?
  rcases List.eq_nil_or_concat t with rfl | ⟨before, e, rfl⟩
  · rfl
  · rw [List.concat_eq_append]
    by_cases he : e = '\r'
    · subst he
      have hend := dropTail?_append before ['\r']
      rw [dropTail?] at hend
      rw [hend, Option.getD_some]
      exact (trim_append before (by decide)).symm
    · have hnone : (['\r'].reverse.isPrefixOf? (before ++ [e]).reverse) = none := by
        simp [List.isPrefixOf?, Ne.symm he]
      rw [hnone]
      rfl

end Text

namespace FlagList

/-- The flags that were written are listed, also when blanks at the end have gone. -/
theorem flagsOf_dropEndWhile {flags : List Text} {t : Text} (h : FlagList flags t) :
    CatalogLine.flagsOf (Text.dropEndWhile isWide t) = flags := by
  -- one flag between its blanks, up to a comma or the end
  have hpiece : ∀ {before flag after : Text}, before.IsPadding → flag.IsFlag → after.IsPadding →
      Text.trim (before ++ flag ++ after) = flag ∧ ',' ∉ before ++ flag ++ after := by
    intro before flag after hbefore hflag hafter
    refine ⟨(Text.trim_padded flag hbefore hafter).trans (Text.trim_eq_self hflag.head hflag.last), ?_⟩
    have hcomma : ∀ {pad : Text}, pad.IsPadding → ',' ∉ pad := fun hpad hc => absurd (hpad ',' hc).1 (by decide)
    simp only [List.mem_append, hcomma hbefore, hcomma hafter, hflag.comma, or_self, not_false_eq_true]
  induction h with
  | nil hpad =>
    have hgone := Text.dropEndWhile_append (p := isWide) [] fun c hc => (hpad c hc).1
    rw [List.nil_append] at hgone
    rw [hgone]
    rfl
  | @last before flag after hbefore hflag hafter =>
    obtain ⟨htrim, -⟩ := hpiece hbefore hflag hafter
    obtain ⟨-, hcomma⟩ := hpiece hbefore hflag (show Text.IsPadding [] by simp [Text.IsPadding])
    rw [List.append_nil] at hcomma
    have hflagEnd : Text.dropEndWhile isWide (before ++ flag ++ after) = before ++ flag := by
      rw [Text.dropEndWhile_append _ fun c hc => (hafter c hc).1]
      obtain ⟨start, e, he⟩ := (List.eq_nil_or_concat flag).resolve_left hflag.ne_nil
      rw [List.concat_eq_append] at he
      subst he
      rw [← List.append_assoc, Text.dropEndWhile_append_cons _ _ (hflag.last e (by simp))]
      rfl
    rw [hflagEnd, CatalogLine.flagsOf, List.splitOn_eq_singleton hcomma]
    obtain ⟨htrim, -⟩ := hpiece hbefore hflag (show Text.IsPadding [] by simp [Text.IsPadding])
    rw [List.append_nil] at htrim
    simp [htrim, hflag.ne_nil]
  | @cons before flag after flags t hbefore hflag hafter _ ih =>
    obtain ⟨htrim, hcomma⟩ := hpiece hbefore hflag hafter
    rw [CatalogLine.flagsOf] at ih ⊢
    rw [Text.dropEndWhile_append_cons _ _ (by decide), List.splitOn_append_cons_self_of_not_mem hcomma, List.map_cons, htrim,
      List.filter_cons_of_pos (by simp [hflag.ne_nil]), ih]

/-- Flags stand on one line. -/
theorem newline_not_mem {flags : List Text} {t : Text} (h : FlagList flags t) : '\n' ∉ t := by
  have hpadding : ∀ {pad : Text}, pad.IsPadding → '\n' ∉ pad := fun hpad hc => (hpad '\n' hc).2 rfl
  induction h with
  | nil hpad => exact hpadding hpad
  | last hbefore hflag hafter => simp [hpadding hbefore, hflag.newline, hpadding hafter]
  | cons hbefore hflag hafter _ ih => simp [hpadding hbefore, hflag.newline, hpadding hafter, ih]

end FlagList

namespace MessageField.Keyword

variable {name : MessageField} {keyword : Text}

/-- A keyword names its field, starts with a letter and holds no white space. -/
theorem spec (h : name.Keyword keyword) :
    CatalogLine.fieldOf? keyword = some name ∧ keyword.head? = some 'm' ∧ ∀ c ∈ keyword, isWide c = false := by
  cases h with
  | context => decide
  | id => decide
  | plural => decide
  | form => decide
  | numbered n =>
    refine ⟨?_, rfl, ?_⟩
    · have hstart : Text.startsWith ("msgstr[" ++ Text.ofNat n ++ "]") "msgstr[" = true := by
        rw [Text.startsWith, List.isPrefixOf_iff_prefix, List.append_assoc]
        exact List.prefix_append _ _
      have hend : Text.endsWith ("msgstr[" ++ Text.ofNat n ++ "]") "]" = true := by
        rw [Text.endsWith, List.isSuffixOf_iff_suffix]
        exact List.suffix_append _ _
      have hcontext : ("msgstr[" ++ Text.ofNat n ++ "]" : Text) ≠ "msgctxt" := by simp
      have hid : ("msgstr[" ++ Text.ofNat n ++ "]" : Text) ≠ "msgid" := by simp
      have hplural : ("msgstr[" ++ Text.ofNat n ++ "]" : Text) ≠ "msgid_plural" := by simp
      rw [CatalogLine.fieldOf?, if_neg hcontext, if_neg hid, if_neg hplural, if_pos]
      rw [hstart, hend, Bool.and_self, Bool.or_true]
    · intro c hc
      rw [List.append_assoc, List.mem_append, List.mem_append] at hc
      rcases hc with hc | hc | hc
      · revert c
        decide
      · have hdigit : c.isDigit = true := Nat.isDigit_of_mem_toDigits (by decide) (by decide) hc
        exact Text.isWide_of_isAlphanum (by rw [Char.isAlphanum, hdigit, Bool.or_true])
      · revert c
        decide

end MessageField.Keyword

namespace CatalogLine

/-- A keyword is cut off at the first blank after it. -/
theorem cutKeyword?_append {keyword gap : Text} (t : Text) (hkeyword : ∀ c ∈ keyword, isWide c = false) {g : Char}
    (hg : isWide g = true) : cutKeyword? (keyword ++ g :: gap ++ t) = some (keyword, gap ++ t) := by
  induction keyword with
  | nil => simp [cutKeyword?, hg]
  | cons c keyword ih =>
    rw [List.cons_append, List.cons_append, cutKeyword?, hkeyword c List.mem_cons_self,
      ih fun d hd => hkeyword d (List.mem_cons_of_mem _ hd)]
    rfl

/-- A line with a further part of a value gives the part. -/
theorem readContent_more (obsolete : Bool) (value : Text) :
    readContent obsolete (Literal.inCatalog value) = .ok (.more value) := by
  have hquote : Text.startsWith (Literal.inCatalog value) "\"" = true := rfl
  rw [readContent, if_pos hquote, Literal.read?_inCatalog]

/-- The literal at the end of a line is trimmed to itself. -/
theorem trim_inCatalog (value : Text) : Text.trim (Literal.inCatalog value) = Literal.inCatalog value :=
  Text.trim_eq_self (by simp [Literal.inCatalog, isWide, isBlank])
    (by simp [Literal.inCatalog, List.getLast?_cons, isWide, isBlank])

/-- A line with a field gives its first part. -/
theorem readContent_field (obsolete : Bool) {name : MessageField} {keyword gap : Text} (value : Text) (hkeyword : name.Keyword keyword)
    (hgap : gap.IsPadding) (hne : gap ≠ []) :
    readContent obsolete (keyword ++ gap ++ Literal.inCatalog value) = .ok (.field obsolete name value) := by
  obtain ⟨hfield, hhead, hwide⟩ := hkeyword.spec
  obtain ⟨g, gap, rfl⟩ := List.exists_cons_of_ne_nil hne
  have hquote : Text.startsWith (keyword ++ g :: gap ++ Literal.inCatalog value) "\"" = false := by
    obtain ⟨rest, rfl⟩ := List.head?_eq_some_iff.1 hhead
    rfl
  have hrest : Text.trim (gap ++ Literal.inCatalog value) = Literal.inCatalog value :=
    (Text.trim_prepend _ fun c hc => (hgap c (List.mem_cons_of_mem _ hc)).1).trans (trim_inCatalog value)
  rw [readContent, if_neg (by rw [hquote]; decide), cutKeyword?_append _ hwide (hgap g List.mem_cons_self).1]
  simp only [hrest, Literal.read?_inCatalog, hfield]

/-- After the mark of its message a line is read for what it says, when it starts like a field or a value and ends with a value. -/
theorem read_marked {obsolete : Bool} {mark body before after : Text} (hmark : ObsoleteMark obsolete mark)
    (hstart : body.head? = some 'm' ∨ body.head? = some '"') (hend : body.getLast? = some '"') (hbefore : before.IsPadding)
    (hafter : after.IsPadding) : read (before ++ (mark ++ body) ++ after) = readContent obsolete body := by
  obtain ⟨c, rest, rfl, hc⟩ : ∃ c rest, body = c :: rest ∧ isWide c = false ∧ c ≠ '#' ∧ c ≠ '|' := by
    rcases hstart with hstart | hstart <;> obtain ⟨rest, rfl⟩ := List.head?_eq_some_iff.1 hstart <;>
      exact ⟨_, rest, rfl, by decide⟩
  obtain ⟨hwide, hhash, hbar⟩ := hc
  have hlast : ∀ e ∈ (mark ++ c :: rest).getLast?, isWide e = false := by
    rw [List.getLast?_append, hend]
    rintro e ⟨⟩
    decide
  unfold read
  rw [Text.trim_padded _ hbefore hafter]
  cases hmark with
  | live =>
    rw [List.nil_append] at hlast ⊢
    rw [Text.trim_eq_self (by rintro e ⟨⟩; exact hwide) hlast]
    simp [Text.dropHead?, Text.startsWith, List.isPrefixOf?, List.isPrefixOf, Ne.symm hhash]
  | @obsolete pad hpad =>
    have hspace : ("#~ " ++ pad ++ c :: rest : Text) = "#~" ++ (' ' :: pad ++ c :: rest) := by
      simp
    rw [Text.trim_eq_self (by rintro e ⟨⟩; decide) hlast, hspace]
    have hdrop : (' ' :: pad ++ c :: rest).dropWhile isWide = c :: rest := by
      rw [List.dropWhile_append_of_pos (by
        rintro d (_ | ⟨_, hd⟩)
        · decide
        · exact (hpad d hd).1), List.dropWhile_cons_of_neg (by simp [hwide])]
    simp only [Text.dropHead?_append, hdrop]
    simp [Text.startsWith, List.isPrefixOf, Ne.symm hbar]

/-- What is written on a line is what is read from it. -/
theorem read_of_written {obsolete : Bool} {line : CatalogLine} {raw : Text} (h : Written obsolete line raw) :
    read raw = .ok line := by
  obtain ⟨before, content, after, hbefore, hcontent, hafter, rfl⟩ := h
  cases hcontent with
  | @comment t _ hcomma htilde =>
    -- what is left of the comment without the blanks at its end starts as before
    have hhead : ∀ c, t.head? ≠ some c → (Text.dropEndWhile isWide t).head? ≠ some c := by
      intro c hc hc'
      obtain ⟨rest, hrest⟩ := List.head?_eq_some_iff.1 hc'
      have hprefix : Text.dropEndWhile isWide t <+: t := by
        rw [← List.reverse_suffix, Text.dropEndWhile, List.reverse_reverse]
        exact List.dropWhile_suffix isWide
      obtain ⟨more, hmore⟩ := hprefix
      rw [hrest] at hmore
      exact hc (by rw [← hmore]; rfl)
    have hcomma' := hhead ',' hcomma
    have htilde' := hhead '~' htilde
    unfold read
    rw [Text.trim_padded _ hbefore hafter, Text.trim_cons t (by decide)]
    generalize Text.dropEndWhile isWide t = said at hcomma' htilde'
    cases said with
    | nil => rfl
    | cons c said =>
      simp only [List.head?_cons, ne_eq, Option.some.injEq] at hcomma' htilde'
      simp [Text.dropHead?, Text.startsWith, List.isPrefixOf?, List.isPrefixOf, Ne.symm hcomma', Ne.symm htilde']
  | @flags names t hflags =>
    unfold read
    rw [Text.trim_padded _ hbefore hafter, Text.trim_cons _ (by decide)]
    have hcomma := Text.dropEndWhile_append_cons [] t (p := isWide) (c := ',') (by decide)
    rw [List.nil_append] at hcomma
    rw [hcomma]
    simp [Text.dropHead?, List.isPrefixOf?, hflags.flagsOf_dropEndWhile]
  | @more mark value hmark =>
    rw [read_marked hmark (Or.inr rfl) (by simp [Literal.inCatalog, List.getLast?_cons]) hbefore hafter, readContent_more]
  | @field mark keyword gap value name hmark hkeyword hgap hne =>
    have hstart : (keyword ++ gap ++ Literal.inCatalog value).head? = some 'm' := by
      obtain ⟨rest, rfl⟩ := List.head?_eq_some_iff.1 hkeyword.spec.2.1
      rfl
    have hend : (keyword ++ gap ++ Literal.inCatalog value).getLast? = some '"' := by
      simp [Literal.inCatalog, List.getLast?_append, List.getLast?_cons]
    rw [read_marked hmark (Or.inl hstart) hend hbefore hafter, readContent_field obsolete value hkeyword hgap hne]

/-- What is written on a line stands on one line. -/
theorem newline_not_mem_of_written {obsolete : Bool} {line : CatalogLine} {raw : Text} (h : Written obsolete line raw) :
    '\n' ∉ raw := by
  have hpadding : ∀ {pad : Text}, pad.IsPadding → '\n' ∉ pad := fun hpad hc => (hpad '\n' hc).2 rfl
  have hmarks : ∀ {mark : Text}, ObsoleteMark obsolete mark → '\n' ∉ mark := by
    intro mark hmark
    cases hmark with
    | live => simp
    | obsolete hpad => simp [hpadding hpad]
  obtain ⟨before, content, after, hbefore, hcontent, hafter, rfl⟩ := h
  have hsaid : '\n' ∉ content := by
    cases hcontent with
    | comment ht _ _ => simp [ht]
    | flags hflags => simp [hflags.newline_not_mem]
    | more hmark => simp [hmarks hmark, Literal.newline_not_mem_inCatalog]
    | field hmark hkeyword hgap _ =>
      have hkey : '\n' ∉ _ := fun hc => absurd (hkeyword.spec.2.2 '\n' hc) (by decide)
      simp [hmarks hmark, hkey, hpadding hgap, Literal.newline_not_mem_inCatalog]
  simp [hpadding hbefore, hsaid, hpadding hafter]

end CatalogLine

/-! ## Reading the lines of a text -/

namespace Catalog

/-- The lines of a text are those that it was laid out from, but for a carriage return at their ends. -/
theorem Laid.lines_rel {rel : CatalogLine → Text → Prop} {lines : List CatalogLine} {raws : List Text} {t : Text} (h : Laid raws t)
    (hnewline : ∀ raw ∈ raws, '\n' ∉ raw) (hchomp : ∀ line raw, rel line raw → rel line (Text.chomp raw))
    (hrel : List.Forall₂ rel lines raws) : List.Forall₂ rel lines t.lines := by
  induction h generalizing lines with
  | nil =>
    cases hrel
    exact .nil
  | last hne => rwa [Text.lines_of_last hne (hnewline _ List.mem_cons_self)]
  | @lf raw t raws _ ih =>
    cases hrel with
    | cons hfirst hrest =>
      rw [Text.lines_append t (hnewline _ List.mem_cons_self)]
      exact .cons (hchomp _ _ hfirst) (ih (fun r hr => hnewline r (List.mem_cons_of_mem _ hr)) hrest)
  | @crlf raw t raws _ ih =>
    cases hrel with
    | cons hfirst hrest =>
      have hreturn : raw ++ '\r' :: '\n' :: t = (raw ++ ['\r']) ++ '\n' :: t := by simp
      have hchomped : Text.chomp (raw ++ ['\r']) = raw := by rw [Text.chomp, Text.dropTail?_append, Option.getD_some]
      rw [hreturn, Text.lines_append t (by simp [hnewline _ List.mem_cons_self]), hchomped]
      exact .cons hfirst (ih (fun r hr => hnewline r (List.mem_cons_of_mem _ hr)) hrest)

end Catalog

/-! ## Reading messages -/

namespace CatalogProgress

/-- Takes in what lines say, one after the other. -/
def addAll (p : CatalogProgress) (lines : List CatalogLine) : Except LineFault CatalogProgress := lines.foldlM add p

theorem addAll_append (p : CatalogProgress) (before after : List CatalogLine) :
    p.addAll (before ++ after) = p.addAll before >>= fun q => q.addAll after := List.foldlM_append

/-- Lines that are read for what they say are taken in as that, whatever their numbers are. -/
theorem foldlM_readLine {lines : List CatalogLine} {raws : List Text}
    (hread : List.Forall₂ (fun line raw => CatalogLine.read raw = .ok line) lines raws) (number : Nat) {p q : CatalogProgress}
    (h : p.addAll lines = .ok q) : (raws.zipIdx number).foldlM readLine p = .ok q := by
  induction hread generalizing p number with
  | nil =>
    cases h
    rfl
  | @cons line raw lines raws hfirst _ ih =>
    rw [addAll, List.foldlM_cons] at h
    cases hadd : p.add line with
    | error e => rw [hadd] at h; cases h
    | ok next =>
      rw [hadd] at h
      rw [List.zipIdx_cons, List.foldlM_cons]
      have hline : p.readLine (raw, number) = .ok next := by
        have hresult : (CatalogLine.read raw >>= p.add) = .ok next := by
          rw [hfirst]
          exact hadd
        simp only [readLine, hresult]
      rw [hline]
      exact ih (number + 1) h

/-- Between two messages: nothing is under way, or a message whose last field is a form. -/
def Closed (p : CatalogProgress) : Prop :=
  p.draft = .blank ∨ (p.draft.last = some .form ∧ p.hasForm = true)

/-- Between two messages everything but a form, a plural or a further part ends the message before. -/
theorem add_finish {p : CatalogProgress} (h : p.Closed) {line : CatalogLine}
    (hline : line = .comment ∨ (∃ names, line = .flags names) ∨
      ∃ obsolete name value, line = .field obsolete name value ∧ (name = .context ∨ name = .id)) :
    p.add line = p.finish.add line := by
  rcases h with hblank | ⟨hlast, hform⟩
  · -- with nothing under way there is nothing to end
    have hp : p.finish = p := by
      obtain ⟨messages, draft⟩ := p
      subst hblank
      rfl
    rw [hp]
  · rcases hline with rfl | ⟨names, rfl⟩ | ⟨obsolete, name, value, rfl, hname⟩
    · simp only [add, finishIf, hform, if_pos]
      rfl
    · simp only [add, finishIf, hform, if_pos]
      rfl
    · have hends : p.draft.endsBefore name = true := by
        rcases hname with rfl | rfl <;> simp [MessageDraft.endsBefore, hlast]
      have hfresh : p.finish.draft.endsBefore name = false := by
        rcases hname with rfl | rfl <;> rfl
      simp only [add, finishIf, hends, hfresh, if_pos, Bool.false_eq_true, if_false]

end CatalogProgress

namespace MessageDraft

/-- A message with a field, which a line of a live or an obsolete message has started. -/
def withField (obsolete : Bool) (m : Message) (field : MessageField × Text) : Message :=
  { put m field.2 field.1 with obsolete := m.obsolete || obsolete }

/-- Going on with the field that came last makes its value longer. -/
theorem extend_withField (obsolete : Bool) (m : Message) (name : MessageField) (first more : Text) :
    extend (withField obsolete m (name, first)) more name = withField obsolete m (name, first ++ more) := by
  cases name <;> simp [extend, withField, put]

/-- Whether fields go on with a message whose last field is given: a context only starts one, and an id only follows a context. -/
def Continues : Option MessageField → List MessageField → Prop
  | _, [] => True
  | last, name :: rest =>
    (name = .context → last = none) ∧ (name = .id → last = none ∨ last = some .context) ∧ Continues (some name) rest

/-- A field that goes on with a message does not end it. -/
theorem endsBefore_of_continues {d : MessageDraft} {name : MessageField} {rest : List MessageField}
    (h : Continues d.last (name :: rest)) : d.endsBefore name = false := by
  obtain ⟨hcontext, hid, -⟩ := h
  cases name with
  | context => simp [endsBefore, hcontext rfl]
  | id => rcases hid rfl with hlast | hlast <;> simp [endsBefore, hlast]
  | plural => rfl
  | form => rfl

end MessageDraft

namespace CatalogProgress

open MessageDraft

/-- Further parts make the value of the field that came last longer. -/
theorem addAll_more (obsolete : Bool) (messages : List Message) (m : Message) (name : MessageField) (first : Text)
    (more : List Text) :
    addAll ⟨messages, ⟨withField obsolete m (name, first), some name⟩⟩ (more.map .more) =
      .ok ⟨messages, ⟨withField obsolete m (name, first ++ more.flatten), some name⟩⟩ := by
  induction more generalizing first with
  | nil =>
    rw [List.flatten_nil, List.append_nil]
    rfl
  | cons part more ih =>
    have hpart := ih (first ++ part)
    rw [List.append_assoc] at hpart
    rw [List.flatten_cons, ← hpart, ← extend_withField]
    rfl

/-- The lines of a field give the message the field with its whole value. -/
theorem addAll_field {obsolete : Bool} {field : MessageField × Text} {lines : List CatalogLine} (p : CatalogProgress)
    (hlines : Message.FieldLines obsolete field lines) (hends : p.draft.endsBefore field.1 = false) :
    p.addAll lines = .ok ⟨p.messages, ⟨withField obsolete p.draft.message field, some field.1⟩⟩ := by
  obtain ⟨name, first, more⟩ := hlines
  rw [← addAll_more, addAll, List.foldlM_cons]
  simp only [add, hends, finishIf, Bool.false_eq_true, if_false]
  cases name <;> rfl

/-- The lines of fields that go on with a message give it the fields. -/
theorem addAll_fields {obsolete : Bool} {fields : List (MessageField × Text)} {parts : List (List CatalogLine)} (p : CatalogProgress)
    (hparts : List.Forall₂ (Message.FieldLines obsolete) fields parts) (hcontinues : Continues p.draft.last (fields.map Prod.fst)) :
    p.addAll parts.flatten = .ok ⟨p.messages, ⟨fields.foldl (withField obsolete) p.draft.message,
      ((fields.map Prod.fst).getLast?).or p.draft.last⟩⟩ := by
  induction hparts generalizing p with
  | nil => rfl
  | @cons field lines fields parts hfirst _ ih =>
    rw [List.flatten_cons, addAll_append, addAll_field p hfirst (endsBefore_of_continues hcontinues)]
    refine (ih _ hcontinues.2.2).trans ?_
    cases fields <;> simp [List.getLast?_cons]

/-- The lines of comments and flags give a message that has no field yet its flags. -/
theorem addAll_notes {flags : List Text} {lines : List CatalogLine} (h : Message.Notes flags lines) (messages : List Message)
    (before : List Text) :
    addAll ⟨messages, ⟨{ Message.blank with flags := before }, none⟩⟩ lines =
      .ok ⟨messages, ⟨{ Message.blank with flags := before ++ flags }, none⟩⟩ := by
  induction h generalizing before with
  | nil =>
    rw [List.append_nil]
    rfl
  | comment _ ih => exact ih before
  | @flags flags lines names _ ih =>
    rw [← List.append_assoc]
    exact ih (before ++ names)

end CatalogProgress

namespace Message

open MessageDraft

/-- The fields of a message go on with a message that has none yet. -/
theorem continues_fields (m : Message) : Continues none (m.fields.map Prod.fst) := by
  have hforms : ∀ last (forms : List Text), Continues last (forms.map (Prod.fst ∘ (MessageField.form, ·))) := by
    intro last forms
    induction forms generalizing last with
    | nil => trivial
    | cons form forms ih => exact ⟨nofun, nofun, ih _⟩
  rw [fields]
  cases m.context <;> cases m.plural <;>
    simp only [Option.toList_none, Option.toList_some, List.map_nil, List.map_cons, List.map_map, List.nil_append,
      List.cons_append, Continues, hforms] <;> simp

/-- A message is made of its flags and its fields. -/
theorem foldl_fields (m : Message) : m.fields.foldl (withField m.obsolete) { blank with flags := m.flags } = m := by
  have hforms : ∀ (forms : List Text) (n : Message), n.obsolete = m.obsolete →
      (forms.map (MessageField.form, ·)).foldl (withField m.obsolete) n = { n with forms := n.forms ++ forms } := by
    intro forms
    induction forms with
    | nil =>
      intro n _
      rw [List.append_nil]
      rfl
    | cons form forms ih =>
      intro n hn
      refine (ih (withField m.obsolete n (.form, form)) (by simp [withField, hn])).trans ?_
      simp [withField, put, hn]
  obtain ⟨context, id, plural, forms, flags, obsolete⟩ := m
  rw [fields, List.foldl_append, List.foldl_cons, List.foldl_append]
  refine (hforms forms _ (by cases context <;> cases plural <;> simp [withField, put, blank])).trans ?_
  cases context <;> cases plural <;> simp [withField, put, blank]

/-- The last field of a message that has a form is one. -/
theorem getLast?_fields {m : Message} (h : m.forms ≠ []) : (m.fields.map Prod.fst).getLast? = some .form := by
  obtain ⟨start, form, hform⟩ := (List.eq_nil_or_concat m.forms).resolve_left h
  rw [List.concat_eq_append] at hform
  simp [fields, hform, List.getLast?_append, List.getLast?_cons]

/-- The first line of a message is a comment, flags, a context or an id. -/
theorem Lines.exists_cons {m : Message} {lines : List CatalogLine} (h : m.Lines lines) :
    ∃ line rest, lines = line :: rest ∧ (line = .comment ∨ (∃ names, line = .flags names) ∨
      ∃ obsolete name value, line = .field obsolete name value ∧ (name = .context ∨ name = .id)) := by
  obtain ⟨-, hnotes, hparts⟩ := h
  generalize m.flags = flags at hnotes
  cases hnotes with
  | comment _ => exact ⟨_, _, rfl, Or.inl rfl⟩
  | flags names _ => exact ⟨_, _, rfl, Or.inr (Or.inl ⟨names, rfl⟩)⟩
  | nil =>
    rw [fields] at hparts
    cases hcontext : m.context with
    | none =>
      rw [hcontext] at hparts
      generalize m.id = id at hparts
      cases hparts with
      | cons hfirst _ =>
        obtain ⟨name, first, more⟩ := hfirst
        exact ⟨_, _, rfl, Or.inr (Or.inr ⟨_, _, _, rfl, Or.inr rfl⟩)⟩
    | some context =>
      rw [hcontext] at hparts
      cases hparts with
      | cons hfirst _ =>
        obtain ⟨name, first, more⟩ := hfirst
        exact ⟨_, _, rfl, Or.inr (Or.inr ⟨_, _, _, rfl, Or.inl rfl⟩)⟩

end Message

namespace CatalogProgress

/-- The lines of a message after other messages give the message, and the next one can follow. -/
theorem addAll_message {p : CatalogProgress} (hp : p.Closed) {m : Message} {lines : List CatalogLine} (h : m.Lines lines) :
    ∃ q, p.addAll lines = .ok q ∧ q.Closed ∧ q.finish.messages = p.finish.messages ++ [m] := by
  have hfinish : p.addAll lines = p.finish.addAll lines := by
    obtain ⟨line, rest, rfl, hline⟩ := h.exists_cons
    rw [addAll, addAll, List.foldlM_cons, List.foldlM_cons, add_finish hp hline]
  obtain ⟨hforms, hnotes, hparts⟩ := h
  have hblank : p.finish = ⟨p.finish.messages, ⟨{ Message.blank with flags := [] }, none⟩⟩ := rfl
  rw [hfinish, hblank, addAll_append, addAll_notes hnotes]
  refine ⟨_, addAll_fields _ hparts m.continues_fields, ?_⟩
  rw [List.nil_append, m.foldl_fields, Message.getLast?_fields hforms]
  exact ⟨Or.inr ⟨rfl, by simpa [hasForm] using hforms⟩, rfl⟩

end CatalogProgress

namespace Catalog

/-- The lines that messages are written on are read one by one, and give the messages after those that came before. -/
theorem WrittenLines.exists_lines {messages : List Message} {raws : List Text} (h : WrittenLines messages raws) :
    ∃ lines, List.Forall₂ (fun line raw => CatalogLine.read raw = .ok line) lines raws ∧ (∀ raw ∈ raws, '\n' ∉ raw) ∧
      ∀ p : CatalogProgress, p.Closed →
        ∃ q, p.addAll lines = .ok q ∧ q.Closed ∧ q.finish.messages = p.finish.messages ++ messages := by
  induction h with
  | nil => exact ⟨[], .nil, nofun, fun p hp => ⟨p, rfl, hp, (List.append_nil _).symm⟩⟩
  | @blank messages raws pad hpad _ ih =>
    obtain ⟨lines, hread, hnewline, hadd⟩ := ih
    have hblank : CatalogLine.read pad = .ok .blank := by
      rw [CatalogLine.read, Text.trim_eq_nil fun c hc => (hpad c hc).1]
      rfl
    refine ⟨.blank :: lines, .cons hblank hread, ?_, fun p _ => ?_⟩
    · exact List.forall_mem_cons.2 ⟨fun hc => (hpad '\n' hc).2 rfl, hnewline⟩
    · exact hadd p.finish (Or.inl rfl)
  | @message m messages mine raws rest hmine hwritten _ ih =>
    obtain ⟨lines, hread, hnewline, hadd⟩ := ih
    have hmineNewline : ∀ raw ∈ raws, '\n' ∉ raw :=
      ((List.forall₂_and_left raws mine).1 ((List.Forall₂.flip (R := flip (CatalogLine.Written m.obsolete)) hwritten).imp
        fun raw line hline => ⟨CatalogLine.newline_not_mem_of_written hline, hline⟩)).1
    refine ⟨mine ++ lines, List.rel_append (hwritten.imp fun _ _ => CatalogLine.read_of_written) hread, ?_, fun p hp => ?_⟩
    · exact fun raw hraw => (List.mem_append.1 hraw).elim (hmineNewline raw) (hnewline raw)
    · obtain ⟨q, hq, hclosed, hmessages⟩ := CatalogProgress.addAll_message hp hmine
      obtain ⟨r, hr, hclosed', hmessages'⟩ := hadd q hclosed
      refine ⟨r, ?_, hclosed', by rw [hmessages', hmessages, List.append_assoc]; rfl⟩
      rw [CatalogProgress.addAll_append, hq]
      exact hr

/-- A catalog that is written is read back: whatever comments and blank lines there are, however its values are cut into parts, its
lines are padded and its messages are set apart, reading gives its messages in order. -/
theorem parse_of_written {c : Catalog} {t : Text} (h : c.Written t) : parse t = .ok c := by
  obtain ⟨raws, hwritten, hlaid⟩ := h
  obtain ⟨lines, hread, hnewline, hadd⟩ := hwritten.exists_lines
  have hlines := hlaid.lines_rel hnewline (fun line raw hline => by
    rw [← hline, CatalogLine.read, CatalogLine.read, Text.trim_chomp]) hread
  obtain ⟨q, hq, -, hmessages⟩ := hadd .start (Or.inl rfl)
  rw [parse, CatalogProgress.foldlM_readLine hlines 1 hq]
  exact congrArg (fun messages => Except.ok (Catalog.mk messages)) hmessages

namespace FilesWitness

/-- A live message with a context, a plural and a guess for it. -/
def live : Message := ⟨some "menu", "File\n", some "Files", ["Soubor", "Soubory"], ["fuzzy", "c-format"], false⟩

/-- An obsolete message. -/
def old : Message := ⟨none, "Old", none, ["Star\"y"], [], true⟩

/-- The catalog of both. -/
def catalog : Catalog := ⟨[live, old]⟩

/-- The catalog as it is written, with lines that are padded, values that are cut into parts and ends of both kinds. -/
def file : Text :=
  "# A menu.\n" ++ "#, fuzzy, c-format\r\n" ++ "\tmsgctxt \"menu\"\n" ++ "msgid \"Fi\" \r\n" ++ "  \"le\\n\"\n" ++
    "msgid_plural  \"Files\"\n" ++ "msgstr[0] \"Soubor\"\n" ++ "msgstr[1] \"Soubory\"\n" ++ "#~ msgid \"Old\"\n" ++
    "#~ msgstr \"\"\n" ++ "#~  \"Star\\\"y\""

/-- The lines of the live message. -/
def liveLines : List CatalogLine :=
  [.comment, .flags ["fuzzy", "c-format"], .field false .context "menu", .field false .id "Fi", .more "le\n",
    .field false .plural "Files", .field false .form "Soubor", .field false .form "Soubory"]

/-- The lines of the live message as they are written. -/
def liveRaws : List Text :=
  ["# A menu.", "#, fuzzy, c-format", "\tmsgctxt \"menu\"", "msgid \"Fi\" ", "  \"le\\n\"", "msgid_plural  \"Files\"",
    "msgstr[0] \"Soubor\"", "msgstr[1] \"Soubory\""]

/-- The lines of the obsolete message. -/
def oldLines : List CatalogLine := [.field true .id "Old", .field true .form "", .more "Star\"y"]

/-- The lines of the obsolete message as they are written. -/
def oldRaws : List Text := ["#~ msgid \"Old\"", "#~ msgstr \"\"", "#~  \"Star\\\"y\""]

/-- The lines of the live message are written so. -/
theorem written_live : List.Forall₂ (CatalogLine.Written false) liveLines liveRaws := by
  have hnone : Text.IsPadding [] := by decide
  have hspace : Text.IsPadding " " := by decide
  have hflags : FlagList ["fuzzy", "c-format"] " fuzzy, c-format" :=
    @FlagList.cons " " "fuzzy" [] _ _ hspace (by constructor <;> decide) hnone
      (@FlagList.last " " "c-format" [] hspace (by constructor <;> decide) hnone)
  refine .cons ⟨[], "# A menu.", [], hnone, .comment (by decide) (by decide) (by decide), hnone, rfl⟩ <|
    .cons ⟨[], "#, fuzzy, c-format", [], hnone, .flags hflags, hnone, rfl⟩ <|
    .cons ⟨"\t", _, [], by decide, .field .live .context hspace (by decide), hnone, rfl⟩ <|
    .cons ⟨[], _, " ", hnone, .field .live .id hspace (by decide), hspace, rfl⟩ <|
    .cons ⟨"  ", _, [], by decide, .more .live, hnone, rfl⟩ <|
    .cons ⟨[], _, [], hnone, @CatalogLine.Content.field _ _ _ "  " _ _ .live .plural (by decide) (by decide), hnone, rfl⟩ <|
    .cons ⟨[], _, [], hnone, .field .live (.numbered 0) hspace (by decide), hnone, ?_⟩ <|
    .cons ⟨[], _, [], hnone, .field .live (.numbered 1) hspace (by decide), hnone, ?_⟩ .nil
  all_goals decide +kernel

/-- The lines of the obsolete message are written so. -/
theorem written_old : List.Forall₂ (CatalogLine.Written true) oldLines oldRaws := by
  have hnone : Text.IsPadding [] := by decide
  have hspace : Text.IsPadding " " := by decide
  exact .cons ⟨[], _, [], hnone, .field (.obsolete hnone) .id hspace (by decide), hnone, rfl⟩ <|
    .cons ⟨[], _, [], hnone, .field (.obsolete hnone) .form hspace (by decide), hnone, rfl⟩ <|
    .cons ⟨[], _, [], hnone, .more (.obsolete hspace), hnone, rfl⟩ .nil

/-- The catalog is written so. -/
theorem written_file : catalog.Written file := by
  have hfield : ∀ (obsolete : Bool) (name : MessageField) (first : Text) (more : List Text) (value : Text),
      first ++ more.flatten = value → Message.FieldLines obsolete (name, value) (.field obsolete name first :: more.map .more) := by
    rintro obsolete name first more _ rfl
    exact .mk name first more
  have hlive : live.Lines liveLines := by
    refine @Message.Lines.mk live [_, _] [[_], [_, _], [_], [_], [_]] (by decide) (.comment (.flags live.flags .nil)) ?_
    exact .cons (hfield false .context "menu" [] _ rfl) <| .cons (hfield false .id "Fi" ["le\n"] _ rfl) <|
      .cons (hfield false .plural "Files" [] _ rfl) <| .cons (hfield false .form "Soubor" [] _ rfl) <|
      .cons (hfield false .form "Soubory" [] _ rfl) .nil
  have hold : old.Lines oldLines := by
    refine @Message.Lines.mk old [] [[_], [_, _]] (by decide) .nil ?_
    exact .cons (hfield true .id "Old" [] _ rfl) <| .cons (hfield true .form "" ["Star\"y"] _ rfl) .nil
  have hlaid : Laid (liveRaws ++ oldRaws) file :=
    .lf <| .crlf <| .lf <| .crlf <| .lf <| .lf <| .lf <| .lf <| .lf <| .lf <| .last (by decide)
  exact ⟨_, .message hlive written_live (.message hold written_old .nil), hlaid⟩

end FilesWitness

open FilesWitness in
/-- The catalog of `FilesWitness` is read back. -/
theorem parse_of_written_files : catalog.Written file ∧ parse file = .ok catalog :=
  ⟨written_file, parse_of_written written_file⟩

end Catalog

end LocalePages
