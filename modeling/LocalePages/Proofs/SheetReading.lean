import LocalePages.Proofs.CallSheets

/-!
# What a call sheet says to a reader of its language

A reader of the generated source starts outside the code, which begins after an opening word. In the code a comment runs to the end
of its line, or to a closing sign, which leaves the code as well; a literal is decoded from its escapes, and a dollar without one
would start a variable. What is outside the code is not read.

A literal is read back as the text that was written, and a comment that holds no closing sign is passed over, so that a sheet
is read as its calls. Comments are not escaped, though: a call whose comment holds a closing sign is lost, and with it every call
after it. `CallSheet.said?_source_iff` says which calls are read, and `CallSheet.said?_source_false` has a sheet that loses all of
its calls.
-/

namespace LocalePages

/-- What the code of a source is made of. -/
inductive SourceToken
  | name (word : Text)
  | literal (text : Text)
  | sign (c : Char)
  deriving DecidableEq, Repr

/-- Where in a source a reader is. Outside the code it counts the characters of the opening word that it has just seen, and in a
comment it remembers whether the last character was a question mark. -/
inductive SourcePlace
  | outside (seen : Nat)
  | code
  | name (word : Text)
  | slash
  | question
  | comment (asked : Bool)
  | literal (text : Text)
  | escape (text : Text)
  deriving DecidableEq, Repr

/-- A reader of a source: where it is, and what it has read. -/
structure SourceReader where
  place : SourcePlace
  tokens : List SourceToken
  deriving DecidableEq, Repr

namespace SourceReader

/-- The word that the code starts after. -/
def opening : Text := "<?php"

/-- The sign that leaves the code. -/
def closing : Text := "?>"

/-- Whether a character may stand in a name. -/
def isNameChar (c : Char) : Bool := c.isAlphanum || c == '_'

/-- What a character means after a backslash. Other escapes are not used in a sheet. -/
def escaped? (c : Char) : Option Char :=
  match c with
  | '\\' => some '\\'
  | '"' => some '"'
  | '$' => some '$'
  | 'n' => some '\n'
  | 'r' => some '\r'
  | 't' => some '\t'
  | _ => none

/-- Reads a character of the code that continues nothing. -/
def enter (tokens : List SourceToken) (c : Char) : SourceReader :=
  if c = '"' then ⟨.literal [], tokens⟩
  else if c = '/' then ⟨.slash, tokens⟩
  else if c = '?' then ⟨.question, tokens⟩
  else if isNameChar c then ⟨.name [c], tokens⟩
  else if isBlank c then ⟨.code, tokens⟩
  else ⟨.code, tokens ++ [.sign c]⟩

/-- Reads one more character. There is no next step at an escape that is not known and at a dollar that starts a variable. -/
def next (r : SourceReader) (c : Char) : Option SourceReader :=
  match r.place with
  | .outside seen =>
    if opening[seen]? = some c then
      if seen + 1 = opening.length then some ⟨.code, r.tokens⟩ else some ⟨.outside (seen + 1), r.tokens⟩
    else some ⟨.outside (if c = '<' then 1 else 0), r.tokens⟩
  | .code => some (enter r.tokens c)
  | .name word => if isNameChar c then some ⟨.name (word ++ [c]), r.tokens⟩ else some (enter (r.tokens ++ [.name word]) c)
  | .slash => if c = '/' then some ⟨.comment false, r.tokens⟩ else some (enter (r.tokens ++ [.sign '/']) c)
  | .question => if c = '>' then some ⟨.outside 0, r.tokens⟩ else some (enter (r.tokens ++ [.sign '?']) c)
  | .comment asked =>
    if c = '\n' || c = '\r' then some ⟨.code, r.tokens⟩
    else if asked && c = '>' then some ⟨.outside 0, r.tokens⟩
    else some ⟨.comment (c = '?'), r.tokens⟩
  | .literal text =>
    if c = '"' then some ⟨.code, r.tokens ++ [.literal text]⟩
    else if c = '\\' then some ⟨.escape text, r.tokens⟩
    else if c = '$' then none
    else some ⟨.literal (text ++ [c]), r.tokens⟩
  | .escape text => (escaped? c).map fun d => ⟨.literal (text ++ [d]), r.tokens⟩

/-- Reads a text. -/
def read (r : SourceReader) (t : Text) : Option SourceReader := t.foldlM next r

/-- What has been read at the end of a source. No literal is open there. -/
def finish? (r : SourceReader) : Option (List SourceToken) :=
  match r.place with
  | .outside _ | .code | .comment _ => some r.tokens
  | .name word => some (r.tokens ++ [.name word])
  | .slash => some (r.tokens ++ [.sign '/'])
  | .question => some (r.tokens ++ [.sign '?'])
  | .literal _ | .escape _ => none

/-- What the code of a source is made of. -/
def tokens? (source : Text) : Option (List SourceToken) := (read ⟨.outside 0, []⟩ source).bind finish?

/-- The texts that the calls of a code ask for, each with its domain. A code of a sheet is made of such calls only. -/
def calls? : List SourceToken → Option (List (Option Text × Text))
  | [] => some []
  | .name f :: .sign '(' :: .literal text :: .sign ')' :: .sign ';' :: rest =>
    if f = "_" then (calls? rest).map ((none, text) :: ·) else none
  | .name f :: .sign '(' :: .literal domain :: .sign ',' :: .literal text :: .sign ')' :: .sign ';' :: rest =>
    if f = "dgettext" then (calls? rest).map ((some domain, text) :: ·) else none
  | _ => none

/-- The texts that a source asks for, each with its domain. -/
def said? (source : Text) : Option (List (Option Text × Text)) := (tokens? source).bind calls?

/-! ## Reading on -/

/-- Two texts are read one after the other. -/
theorem read_append (r : SourceReader) (s t : Text) : r.read (s ++ t) = (r.read s).bind fun r' => r'.read t :=
  List.foldlM_append

/-- A text is read from its first character. -/
theorem read_cons (r : SourceReader) (c : Char) (t : Text) : r.read (c :: t) = (r.next c).bind fun r' => r'.read t :=
  List.foldlM_cons

/-- A character of a literal is read back as it was before it was written. -/
theorem read_writtenChar (text : Text) (tokens : List SourceToken) (c : Char) :
    read ⟨.literal text, tokens⟩ (Literal.writtenChar c) = some ⟨.literal (text ++ [c]), tokens⟩ := by
  unfold Literal.writtenChar
  split
  case h_7 hback hquote hdollar _ _ _ =>
    have hnext : next ⟨.literal text, tokens⟩ c = some ⟨.literal (text ++ [c]), tokens⟩ := by
      simp only [next]
      rw [if_neg hquote, if_neg hback, if_neg hdollar]
    rw [read_cons, hnext]
    rfl
  all_goals rfl

/-- What stands between the quotes of a literal is read back as the text that was written. -/
theorem read_inside (t text : Text) (tokens : List SourceToken) :
    read ⟨.literal text, tokens⟩ (t.flatMap Literal.writtenChar) = some ⟨.literal (text ++ t), tokens⟩ := by
  induction t generalizing text with
  | nil => simp [read]
  | cons c t ih => rw [List.flatMap_cons, read_append, read_writtenChar, Option.bind_some, ih, List.append_cons text c t]

/-- A literal in the code is read back as the text that was written. -/
theorem read_literal (t : Text) (tokens : List SourceToken) :
    read ⟨.code, tokens⟩ (Literal.written t) = some ⟨.code, tokens ++ [.literal t]⟩ := by
  have hopen : read ⟨.code, tokens⟩ "\"" = some ⟨.literal [], tokens⟩ := rfl
  have hclose : read ⟨.literal t, tokens⟩ "\"" = some ⟨.code, tokens ++ [.literal t]⟩ := rfl
  rw [Literal.written, read_append, read_append, hopen, Option.bind_some, read_inside, Option.bind_some, List.nil_append, hclose]

/-! ## Comments -/

/-- The text of a comment from a place on, with the question mark before the place. -/
def asking (asked : Bool) (t : Text) : Text := if asked then '?' :: t else t

/-- A closing sign starts with the question mark before the place, or it comes after the first character. -/
theorem closing_infix_asking_cons (asked : Bool) (c : Char) (t : Text) :
    closing <:+: asking asked (c :: t) ↔ (asked && c = '>') = true ∨ closing <:+: asking (c = '?') t := by
  have hplain : closing <:+: c :: t ↔ closing <:+: asking (c = '?') t := by
    by_cases hc : c = '?'
    · simp [asking, hc]
    · simp [asking, hc, List.infix_cons_iff, closing, Ne.symm hc]
  cases asked with
  | false => simpa [asking] using hplain
  | true =>
    rw [← hplain]
    simp [asking, List.infix_cons_iff, closing, @eq_comm _ c]

/-- The end of its line leads from a comment without a closing sign back into the code. -/
theorem read_comment {t : Text} (hfeed : '\n' ∉ t) (hreturn : '\r' ∉ t) (asked : Bool) (h : ¬closing <:+: asking asked t)
    (tokens : List SourceToken) (after : Text) :
    read ⟨.comment asked, tokens⟩ (t ++ '\n' :: after) = read ⟨.code, tokens⟩ after := by
  induction t generalizing asked with
  | nil => rfl
  | cons c t ih =>
    simp only [List.mem_cons, not_or] at hfeed hreturn
    rw [closing_infix_asking_cons, not_or] at h
    have hnext : next ⟨.comment asked, tokens⟩ c = some ⟨.comment (c = '?'), tokens⟩ := by
      simp only [next]
      rw [if_neg (by simp [Ne.symm hfeed.1, Ne.symm hreturn.1]), if_neg h.1]
    rw [List.cons_append, read_cons, hnext, Option.bind_some]
    exact ih hfeed.2 hreturn.2 _ h.2

/-- A closing sign leads from a comment out of the code. What comes after it in the comment is read there. -/
theorem exists_read_comment {t : Text} (hfeed : '\n' ∉ t) (hreturn : '\r' ∉ t) (asked : Bool) (h : closing <:+: asking asked t) :
    ∃ rest, rest <:+ t ∧
      ∀ tokens after, read ⟨.comment asked, tokens⟩ (t ++ after) = read ⟨.outside 0, tokens⟩ (rest ++ after) := by
  induction t generalizing asked with
  | nil => cases asked <;> exact absurd h (by decide)
  | cons c t ih =>
    simp only [List.mem_cons, not_or] at hfeed hreturn
    have hline : ¬(c = '\n' || c = '\r') = true := by simp [Ne.symm hfeed.1, Ne.symm hreturn.1]
    by_cases hleaves : (asked && c = '>') = true
    · refine ⟨t, List.suffix_cons c t, fun tokens after => ?_⟩
      rw [List.cons_append, read_cons]
      simp only [next]
      rw [if_neg hline, if_pos hleaves, Option.bind_some]
    · have hmore := ((closing_infix_asking_cons asked c t).1 h).resolve_left hleaves
      obtain ⟨rest, hrest, hread⟩ := ih hfeed.2 hreturn.2 _ hmore
      refine ⟨rest, hrest.trans (List.suffix_cons c t), fun tokens after => ?_⟩
      rw [List.cons_append, read_cons]
      simp only [next]
      rw [if_neg hline, if_neg hleaves, Option.bind_some, hread]

/-! ## Outside the code -/

/-- A reader outside the code stays there in a text that does not hold the opening word. -/
theorem read_outside (t : Text) {seen : Nat} (hseen : seen < opening.length) (tokens : List SourceToken)
    (h : ¬opening <:+: opening.take seen ++ t) : ∃ seen', read ⟨.outside seen, tokens⟩ t = some ⟨.outside seen', tokens⟩ := by
  induction t generalizing seen with
  | nil => exact ⟨seen, rfl⟩
  | cons c t ih =>
    rw [read_cons]
    simp only [next]
    by_cases hc : opening[seen]? = some c
    · have htake : opening.take seen ++ c :: t = opening.take (seen + 1) ++ t := by
        rw [List.take_add_one, hc]
        simp
      rw [htake] at h
      have hmore : seen + 1 ≠ opening.length := by
        intro hall
        rw [hall, List.take_length] at h
        exact h (List.prefix_append opening t).isInfix
      rw [if_pos hc, if_neg hmore, Option.bind_some]
      exact ih (by omega) h
    · rw [if_neg hc, Option.bind_some]
      have hrest : ¬opening <:+: c :: t := fun hin => h (hin.trans (List.suffix_append _ _).isInfix)
      split
      · rename_i hopen
        rw [hopen] at hrest
        exact ih (by decide) hrest
      · exact ih (by decide) fun hin => hrest (hin.trans (List.suffix_cons c t).isInfix)

end SourceReader

namespace SheetCall

open SourceReader

/-- A call as the code of a source. -/
def tokens (c : SheetCall) : List SourceToken :=
  match c.domain with
  | some domain =>
    [.name "dgettext", .sign '(', .literal domain, .sign ',', .literal c.canonical, .sign ')', .sign ';']
  | none => [.name "_", .sign '(', .literal c.canonical, .sign ')', .sign ';']

/-- The text that a call asks for, with its domain. -/
def said (c : SheetCall) : Option Text × Text := (c.domain, c.canonical)

/-- The comment of a call ends the code: it holds the closing sign. -/
def EndsCode (c : SheetCall) : Prop := closing <:+: c.comment

instance (c : SheetCall) : Decidable c.EndsCode := inferInstanceAs (Decidable (closing <:+: c.comment))

/-- A call holds the word that opens code. -/
def OpensCode (c : SheetCall) : Prop := opening <:+: c.written

instance (c : SheetCall) : Decidable c.OpensCode := inferInstanceAs (Decidable (opening <:+: c.written))

/-- The comment of a call has one line. -/
def OnOneLine (c : SheetCall) : Prop := '\n' ∉ c.comment ∧ '\r' ∉ c.comment

/-- A call is read as the code that it is. -/
theorem read_expression (c : SheetCall) (before : List SourceToken) :
    read ⟨.code, before⟩ c.expression = some ⟨.code, before ++ c.tokens⟩ := by
  unfold expression tokens
  cases c.domain with
  | none =>
    have hhead : read ⟨.code, before⟩ "_(" = some ⟨.code, before ++ [.name "_"] ++ [.sign '(']⟩ := rfl
    have htail : ∀ ts, read ⟨.code, ts⟩ ");" = some ⟨.code, ts ++ [.sign ')'] ++ [.sign ';']⟩ := fun _ => rfl
    simp only [read_append, hhead, read_literal, htail, Option.bind_some]
    simp
  | some domain =>
    have hhead : read ⟨.code, before⟩ "dgettext(" = some ⟨.code, before ++ [.name "dgettext"] ++ [.sign '(']⟩ := rfl
    have hcomma : ∀ ts, read ⟨.code, ts⟩ ", " = some ⟨.code, ts ++ [.sign ',']⟩ := fun _ => rfl
    have htail : ∀ ts, read ⟨.code, ts⟩ ");" = some ⟨.code, ts ++ [.sign ')'] ++ [.sign ';']⟩ := fun _ => rfl
    simp only [read_append, hhead, read_literal, hcomma, htail, Option.bind_some]
    simp

/-- What stands on the line of a comment leads into it. -/
theorem read_commentLine (c : SheetCall) (before : List SourceToken) (after : Text) :
    read ⟨.code, before⟩ (c.commentLine ++ after) = read ⟨.comment false, before⟩ (c.comment ++ after) := by
  have hhead : read ⟨.code, before⟩ ("// " ++ sourceCommentTag ++ " ") = some ⟨.comment false, before⟩ := rfl
  rw [read_append, commentLine, read_append, hhead, Option.bind_some, ← read_append]

/-- A call whose comment does not end the code is read as the code that it is. -/
theorem read_written {c : SheetCall} (hline : c.OnOneLine) (h : ¬c.EndsCode) (before : List SourceToken) :
    read ⟨.code, before⟩ c.written = some ⟨.code, before ++ c.tokens⟩ := by
  have hfeed : ∀ ts, read ⟨.code, ts⟩ ['\n'] = some ⟨.code, ts⟩ := fun _ => rfl
  rw [written_eq, read_commentLine, read_comment hline.1 hline.2 false h, read_append, read_expression, Option.bind_some, hfeed]

/-- A call whose comment ends the code leads out of it. What is read there ends what was written. -/
theorem exists_read_written {c : SheetCall} (hline : c.OnOneLine) (h : c.EndsCode) :
    ∃ rest, rest <:+ c.written ∧
      ∀ before after, read ⟨.code, before⟩ (c.written ++ after) = read ⟨.outside 0, before⟩ (rest ++ after) := by
  obtain ⟨rest, ⟨start, hstart⟩, hread⟩ := exists_read_comment hline.1 hline.2 false h
  refine ⟨rest ++ '\n' :: (c.expression ++ ['\n']), ?_, fun before after => ?_⟩
  · rw [written_eq, commentLine, ← hstart]
    exact ⟨_, (List.append_assoc _ rest _).symm.trans (congrArg (· ++ _) (List.append_assoc _ start rest))⟩
  · rw [written_eq, List.append_assoc, read_commentLine, hread, List.append_assoc]

/-- A word of one line that stands in a line or after it stands in one of the two. -/
theorem infix_or_infix_of_line {word line after : Text} (hword : '\n' ∉ word) (hne : word ≠ [])
    (h : word <:+: line ++ '\n' :: after) : word <:+: line ∨ word <:+: after := by
  induction line with
  | nil =>
    obtain hhead | hin := List.infix_cons_iff.1 h
    · obtain ⟨d, word, rfl⟩ := List.exists_cons_of_ne_nil hne
      exact absurd (by simp [(List.cons_prefix_cons.1 hhead).1]) hword
    · exact Or.inr hin
  | cons c line ih =>
    obtain hhead | hin := List.infix_cons_iff.1 h
    · refine Or.inl (List.IsPrefix.isInfix ?_)
      rcases Nat.lt_or_ge (c :: line).length word.length with hlong | hshort
      · -- a word that goes on after the line would hold the line feed
        have hfeed : (c :: line) ++ ['\n'] <+: word :=
          List.prefix_of_prefix_length_le ⟨after, List.append_assoc _ _ _⟩ hhead (by rw [List.length_append]; exact hlong)
        have hmem : '\n' ∈ (c :: line) ++ ['\n'] := List.mem_append_right _ (List.mem_singleton_self _)
        exact absurd (hfeed.subset hmem) hword
      · exact List.prefix_of_prefix_length_le hhead (List.prefix_append _ _) hshort
    · exact (ih hin).imp_left fun hline => List.infix_cons hline

/-- Calls hold the opening word when one of them does. -/
theorem exists_opensCode {cs : List SheetCall} (h : opening <:+: cs.flatMap written) : ∃ c ∈ cs, c.OpensCode := by
  induction cs with
  | nil => exact absurd h (by decide)
  | cons c cs ih =>
    have hlayout : (c :: cs).flatMap written = (c.commentLine ++ '\n' :: c.expression) ++ '\n' :: cs.flatMap written := by
      simp only [List.flatMap_cons, written_eq, List.append_assoc, List.cons_append, List.nil_append]
    rw [hlayout] at h
    obtain hin | hin := infix_or_infix_of_line (by decide) (by decide) h
    · refine ⟨c, List.mem_cons_self, hin.trans ?_⟩
      rw [written_eq, ← List.cons_append, ← List.append_assoc]
      exact (List.prefix_append _ _).isInfix
    · obtain ⟨d, hd, hopens⟩ := ih hin
      exact ⟨d, List.mem_cons_of_mem _ hd, hopens⟩

/-- Calls are read up to the first whose comment ends the code, when none of them opens it again. -/
theorem read_calls {cs : List SheetCall} (hline : ∀ c ∈ cs, c.OnOneLine)
    (hopen : (∃ c ∈ cs, c.EndsCode) → ∀ c ∈ cs, ¬c.OpensCode) (before : List SourceToken) :
    (read ⟨.code, before⟩ (cs.flatMap written)).bind finish? =
      some (before ++ (cs.takeWhile fun c => ¬c.EndsCode).flatMap tokens) := by
  induction cs generalizing before with
  | nil =>
    rw [List.takeWhile_nil, List.flatMap_nil, List.flatMap_nil, List.append_nil]
    rfl
  | cons c cs ih =>
    by_cases hc : c.EndsCode
    · obtain ⟨rest, hrest, hread⟩ := exists_read_written (hline c List.mem_cons_self) hc
      have hclosed : ¬opening <:+: rest ++ cs.flatMap written := by
        obtain ⟨start, hstart⟩ := hrest
        have hall : (c :: cs).flatMap written = start ++ (rest ++ cs.flatMap written) := by
          rw [List.flatMap_cons, ← hstart, List.append_assoc]
        intro hin
        obtain ⟨d, hd, hopens⟩ := exists_opensCode (hall ▸ hin.trans (List.suffix_append start _).isInfix)
        exact hopen ⟨c, List.mem_cons_self, hc⟩ d hd hopens
      obtain ⟨seen, hout⟩ := read_outside (rest ++ cs.flatMap written) (show 0 < opening.length by decide) before hclosed
      rw [List.flatMap_cons, hread, hout]
      simp [finish?, hc]
    · rw [List.flatMap_cons, read_append, read_written (hline c List.mem_cons_self) hc, Option.bind_some,
        ih (fun d hd => hline d (List.mem_cons_of_mem _ hd))
          (fun hends e he => hopen (hends.imp fun _ h => h.imp_left (List.mem_cons_of_mem _)) e (List.mem_cons_of_mem _ he))]
      simp [hc]

/-- The code of a call, with what comes after it, asks for the text of the call and for what comes after it asks for. -/
theorem calls?_append (c : SheetCall) (rest : List SourceToken) : calls? (c.tokens ++ rest) = (calls? rest).map (c.said :: ·) := by
  unfold tokens said
  cases c.domain with
  | none => simp [calls?]
  | some domain => simp [calls?]

/-- The code of calls asks for their texts. -/
theorem calls?_tokens (cs : List SheetCall) : calls? (cs.flatMap tokens) = some (cs.map said) := by
  induction cs with
  | nil => rfl
  | cons c cs ih => rw [List.flatMap_cons, calls?_append, ih, Option.map_some, List.map_cons]

end SheetCall

namespace CallSheet

open SourceReader SheetCall

/-- The sheet that calls with their domains, texts and comments are added to, one after the other. -/
def ofEmits (emits : List (Option Text × Text × Text)) : CallSheet :=
  emits.foldl (fun s e => s.emit e.1 e.2.1 e.2.2) .empty

/-- Every comment of a sheet has one line. -/
theorem onOneLine_ofEmits (emits : List (Option Text × Text × Text)) : ∀ c ∈ (ofEmits emits).calls, c.OnOneLine := by
  have hcanonical (t : Text) : '\n' ∉ Text.canonical t ∧ '\r' ∉ Text.canonical t :=
    ⟨fun h => absurd (Text.eq_space_of_mem_canonical h (by decide)) (by decide),
      fun h => absurd (Text.eq_space_of_mem_canonical h (by decide)) (by decide)⟩
  have hfold : ∀ (emits : List (Option Text × Text × Text)) (s : CallSheet), (∀ c ∈ s.calls, c.OnOneLine) →
      ∀ c ∈ (emits.foldl (fun s e => s.emit e.1 e.2.1 e.2.2) s).calls, c.OnOneLine := by
    intro emits
    induction emits with
    | nil => exact fun s h => h
    | cons e emits ih =>
      intro s h
      refine ih _ fun c hc => ?_
      obtain hc | rfl := mem_calls_emit hc
      · exact h c hc
      · exact hcanonical e.2.2
  exact hfold emits .empty fun c hc => absurd hc List.not_mem_nil

/-- A sheet says its calls up to the first whose comment holds the sign that ends code, and so it says all of them exactly when no
comment does. No call opens the code again where one ends it. -/
theorem said?_source_iff (emits : List (Option Text × Text × Text))
    (hopen : (∃ c ∈ (ofEmits emits).calls, c.EndsCode) → ∀ c ∈ (ofEmits emits).calls, ¬c.OpensCode) :
    said? (ofEmits emits).source = some (((ofEmits emits).calls.takeWhile fun c => ¬c.EndsCode).map said) ∧
      (said? (ofEmits emits).source = some ((ofEmits emits).calls.map said) ↔ ∀ c ∈ (ofEmits emits).calls, ¬c.EndsCode) := by
  have hstart : read ⟨.outside 0, []⟩ (ofEmits emits).source = read ⟨.code, []⟩ ((ofEmits emits).calls.flatMap written) :=
    read_append ⟨.outside 0, []⟩ "<?php\n" _
  have hsaid : said? (ofEmits emits).source = some (((ofEmits emits).calls.takeWhile fun c => ¬c.EndsCode).map said) := by
    rw [said?, tokens?, hstart, read_calls (onOneLine_ofEmits emits) hopen [], Option.bind_some, List.nil_append, calls?_tokens]
  refine ⟨hsaid, ?_⟩
  rw [hsaid, Option.some.injEq]
  constructor
  · intro hall c hc
    have hlength := congrArg List.length hall
    rw [List.length_map, List.length_map] at hlength
    have htake := (List.takeWhile_prefix _).eq_of_length hlength
    rw [← htake] at hc
    simpa using List.mem_takeWhile_imp hc
  · intro hall
    rw [List.takeWhile_eq_self_iff.2 (by simpa using hall)]

/-- Calls for the texts of a page. The marker of the second one holds the sign that ends code. -/
def closingMarker : List (Option Text × Text × Text) :=
  [(some "shop", "Your name", "./index.html: Attr placeholder of gettext=\"shop:placeholder\""),
    (none, "Hello", "./index.html: Text content of gettext=\". ?>\""),
    (none, "World", "./index.html: Text content of gettext=\".\"")]

/-- Only the second call of the sheet ends the code, and none opens it; the first call is not all that the sheet has to say. -/
theorem calls_closingMarker : (∀ c ∈ (ofEmits closingMarker).calls, ¬c.OpensCode) ∧
    some (((ofEmits closingMarker).calls.takeWhile fun c => ¬c.EndsCode).map said) =
      some (((ofEmits closingMarker).calls.take 1).map said) ∧
    (ofEmits closingMarker).size = 3 ∧
    said? (ofEmits closingMarker).source = some (((ofEmits closingMarker).calls.take 1).map said) ∧
    some (((ofEmits closingMarker).calls.take 1).map said) ≠ some ((ofEmits closingMarker).calls.map said) := by
  decide +kernel

/-- Of the three calls of a sheet only the first is read, when the marker of the second one ends the code. -/
theorem said?_source_iff_closingMarker :
    said? (ofEmits closingMarker).source = some (((ofEmits closingMarker).calls.take 1).map said) ∧
      (ofEmits closingMarker).size = 3 :=
  ⟨(said?_source_iff closingMarker fun _ => calls_closingMarker.1).1.trans calls_closingMarker.2.1, calls_closingMarker.2.2.1⟩

/-- Not every sheet says all of its calls. -/
theorem said?_source_false :
    ¬∀ emits : List (Option Text × Text × Text), said? (ofEmits emits).source = some ((ofEmits emits).calls.map said) := by
  intro h
  obtain ⟨-, -, -, hsaid, hnot⟩ := calls_closingMarker
  exact hnot (hsaid.symm.trans (h closingMarker))

end CallSheet

end LocalePages
