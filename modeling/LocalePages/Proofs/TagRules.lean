import LocalePages.Markup.Construction.Body

/-!
# The rules for tags in the body

What a tag does in the body hangs on its name only through the rule it falls under: one for start tags (`StartRule`) and one for end
tags (`EndRule`). So it is enough to look at the rules, of which there are few (`Builder.startInBody_eq`,
`Builder.closeInBody_eq`). Tags that go beyond the body, or open something with rules of its own, are left aside (`barred`).
-/

namespace LocalePages

/-- What the start tag of an element does in the body. -/
inductive StartRule where
  /-- It ends the paragraph around it. -/
  | block
  /-- It ends the paragraph and the heading around it. -/
  | heading
  /-- It ends the paragraph around it, and a line feed after it is dropped. -/
  | preformatted
  /-- It ends the paragraph around it, and is without effect inside another one. -/
  | form
  /-- It ends the items of its kind around it, and the paragraph. -/
  | item
  /-- It ends the button around it. -/
  | button
  /-- It is formatting, and ends the formatting of its name around it. -/
  | link
  /-- It is formatting. -/
  | formatting
  /-- It is formatting, and ends the element of its name around it. -/
  | unbroken
  /-- It has no end tag and does not open formatting again. -/
  | bare
  /-- It has no end tag. -/
  | void
  /-- It has no end tag and ends the paragraph around it. -/
  | separator
  /-- What follows is read as text. -/
  | text (reading : Reading)
  /-- What follows is read as text, in a page that has a body. -/
  | frame (reading : Reading)
  /-- What follows is read as text, and a line feed after it is dropped. -/
  | area (reading : Reading)
  /-- It does nothing else. -/
  | plain
  | barred
  deriving DecidableEq, Repr

/-- What the end tag of an element does in the body. -/
inductive EndRule where
  /-- It closes its element if it is open. -/
  | block
  /-- It closes the form that is open. -/
  | form
  /-- It closes the paragraph, which is opened if there is none. -/
  | paragraph
  /-- It closes the item of its kind if one is open. -/
  | item
  /-- It closes any heading. -/
  | heading
  /-- It closes formatting, and untangles it. -/
  | formatting
  /-- It closes its element unless a special one is in between. -/
  | plain
  | barred
  deriving DecidableEq, Repr

/-- The rule for a start tag. -/
def startRule (n : Text) : StartRule :=
  if n = "html" then .barred
  else if n.isOneOf Builder.headTags then
    if n.isOneOf ["base", "basefont", "bgsound", "link", "meta"] then .bare
    else if n = "title" then .text (.withReferences n)
    else if n.isOneOf ["noframes", "style", "noscript"] then .text (.raw n)
    else if n = "script" then .text .script
    else .barred
  else if n = "body" then .barred
  else if n = "frameset" then .barred
  else if n.isOneOf ["address", "article", "aside", "blockquote", "center", "details", "dialog", "dir", "div", "dl", "fieldset",
      "figcaption", "figure", "footer", "header", "hgroup", "main", "menu", "nav", "ol", "p", "section", "summary", "ul"] then .block
  else if n.isOneOf ElementName.headingTags then .heading
  else if n.isOneOf ["pre", "listing"] then .preformatted
  else if n = "form" then .form
  else if n.isOneOf ["li", "dd", "dt"] then .item
  else if n = "plaintext" then .barred
  else if n = "button" then .button
  else if n = "a" then .link
  else if n.isOneOf ["b", "big", "code", "em", "font", "i", "s", "small", "strike", "strong", "tt", "u"] then .formatting
  else if n = "nobr" then .unbroken
  else if n.isOneOf ["applet", "marquee", "object"] then .barred
  else if n = "table" then .barred
  else if n.isOneOf ["area", "br", "embed", "img", "keygen", "wbr", "input"] then .void
  else if n.isOneOf ["param", "source", "track"] then .bare
  else if n = "hr" then .separator
  else if n = "image" then .barred
  else if n = "textarea" then .area (.withReferences n)
  else if n = "xmp" then .barred
  else if n = "iframe" then .frame (.raw n)
  else if n.isOneOf ["noembed", "noscript"] then .text (.raw n)
  else if n = "select" then .barred
  else if n.isOneOf ["optgroup", "option"] then .barred
  else if n.isOneOf ["rb", "rtc"] then .barred
  else if n.isOneOf ["rp", "rt"] then .barred
  else if n = "math" then .barred
  else if n = "svg" then .barred
  else if n.isOneOf ["caption", "col", "colgroup", "frame", "head", "tbody", "td", "tfoot", "th", "thead", "tr"] then .barred
  else .plain

/-- The rule for an end tag. -/
def endRule (n : Text) : EndRule :=
  if n = "template" then .barred
  else if n = "body" then .barred
  else if n = "html" then .barred
  else if n.isOneOf ["address", "article", "aside", "blockquote", "button", "center", "details", "dialog", "dir", "div", "dl",
      "fieldset", "figcaption", "figure", "footer", "header", "hgroup", "listing", "main", "menu", "nav", "ol", "pre", "section",
      "summary", "ul"] then .block
  else if n = "form" then .form
  else if n = "p" then .paragraph
  else if n.isOneOf ["li", "dd", "dt"] then .item
  else if n.isOneOf ElementName.headingTags then .heading
  else if n.isOneOf ["a", "b", "big", "code", "em", "font", "i", "nobr", "s", "small", "strike", "strong", "tt", "u"] then .formatting
  else if n.isOneOf ["applet", "marquee", "object"] then .barred
  else if n = "br" then .barred
  else .plain

namespace Builder

variable {b : Builder} {tag : StartTag} {n : Text}

/-- The page after a start tag, by its rule. -/
def openBy (b : Builder) (tag : StartTag) : StartRule → Builder
  | .block => b.leaveParagraph.openTag tag
  | .heading =>
    let b := b.leaveParagraph
    (if b.currentIs ElementName.headingTags then b.pop else b).openTag tag
  | .preformatted => { (b.leaveParagraph.openTag tag).noFrames with newlineDrops := true }
  | .form =>
    if b.form.isSome && !b.isOpen "template" then b
    else
      let b := b.leaveParagraph.openTag tag
      if b.isOpen "template" then b else { b with form := some b.current }
  | .item => b.startItem tag
  | .button => ((if b.scopeHas "button" then b.endSilently.popTag "button" else b).reopenFormatting.openTag tag).noFrames
  | .link =>
    let b := match b.formattingHere.find? fun (i, _) => (b.nameOf i).isHtml ["a"] with
      | some (i, _) => ((b.adopt "a").unformat i).unstack i
      | none => b
    b.reopenFormatting.openFormatting tag
  | .formatting => b.reopenFormatting.openFormatting tag
  | .unbroken =>
    let b := b.reopenFormatting
    (if b.scopeHas "nobr" then (b.adopt "nobr").reopenFormatting else b).openFormatting tag
  | .bare => b.addTag tag
  | .void => b.addVoid tag
  | .separator => (b.leaveParagraph.addTag tag).noFrames
  | .text reading => b.openText tag reading
  | .frame reading => b.noFrames.openText tag reading
  | .area reading => { b.noFrames.openText tag reading with newlineDrops := true }
  | .plain => b.reopenFormatting.openTag tag
  | .barred => b

/-- Two chains of the same questions that have the same answers. -/
theorem ite_lockstep {c : Prop} {_ : Decidable c} {α β : Type} {x y : β} {r s barred : α} {f : α → β}
    (hthen : c → r ≠ barred → x = f r) (helse : ¬c → s ≠ barred → y = f s) :
    (if c then r else s) ≠ barred → (if c then x else y) = f (if c then r else s) := by
  intro h
  by_cases hc : c
  · rw [if_pos hc] at h ⊢
    rw [if_pos hc]
    exact hthen hc h
  · rw [if_neg hc] at h ⊢
    rw [if_neg hc]
    exact helse hc h

/-- What a start tag does in the head, where it is not that of the outermost element. -/
theorem inHead_start (b : Builder) (h : tag.name ≠ "html".toList) :
    b.inHead (.start tag) =
      if tag.name.isOneOf ["base", "basefont", "bgsound", "link", "meta"] then .settled (b.addTag tag)
      else if tag.name = "title" then .settled (b.openText tag (.withReferences tag.name))
      else if tag.name.isOneOf ["noframes", "style", "noscript"] then .settled (b.openText tag (.raw tag.name))
      else if tag.name = "script" then .settled (b.openText tag .script)
      else if tag.name = "template" then
        let b := (b.openTag tag).addBorder
        .settled { b with framesAllowed := false, mode := .inTemplate, templates := .inTemplate :: b.templates }
      else if tag.name = "head" then .settled b
      else b.pop.retry .afterHead :=
  if_neg h

/-- What a start tag does in the body is what its rule says. -/
theorem startInBody_eq (b : Builder) (h : startRule tag.name ≠ .barred) :
    b.startInBody tag = .settled (b.openBy tag (startRule tag.name)) := by
  revert h
  unfold startRule startInBody
  dsimp only
  let answer (rule : StartRule) : Outcome := .settled (b.openBy tag rule)
  refine ite_lockstep (f := answer) (fun _ h => absurd rfl h) fun hhtml => ?_
  refine ite_lockstep (f := answer) (fun _ => ?_) fun _ => ?_
  · rw [inHead_start b hhtml]
    iterate 4 refine ite_lockstep (f := answer) (fun _ _ => rfl) fun _ => ?_
    exact fun h => absurd rfl h
  iterate 5 refine ite_lockstep (f := answer) (fun _ h => by first | exact absurd rfl h | rfl) fun _ => ?_
  refine ite_lockstep (f := answer) (fun _ _ => ?_) fun _ => ?_
  · exact (apply_ite Outcome.settled _ _ _).symm
  iterate 23 refine ite_lockstep (f := answer) (fun _ h => by first | exact absurd rfl h | rfl) fun _ => ?_
  exact fun _ => rfl

/-- The page after an end tag, by its rule. -/
def closeBy (b : Builder) (n : Text) : EndRule → Builder
  | .block => if b.scopeHas n then b.endSilently.popTag n else b
  | .form => b.closeForm
  | .paragraph => (if b.inParagraph then b else b.openImplied "p").closeParagraph
  | .item =>
    let here := if n = "li" then b.inScope ElementName.endsItemScope (·.isHtml ["li"]) else b.scopeHas n
    if here then (b.endSilentlyExcept n).popTag n else b
  | .heading =>
    let heading (name : ElementName) := name.isHtml ElementName.headingTags
    if b.inScope ElementName.endsScope heading then b.endSilently.popThrough heading else b
  | .formatting => b.adopt n
  | .plain => b.closeAny n
  | .barred => b

/-- What an end tag does in the body is what its rule says. -/
theorem closeInBody_eq (b : Builder) (h : endRule n ≠ .barred) : b.closeInBody n = .settled (b.closeBy n (endRule n)) := by
  revert h
  unfold endRule closeInBody
  let answer (rule : EndRule) : Outcome := .settled (b.closeBy n rule)
  iterate 11 refine ite_lockstep (f := answer) (fun _ h => by first | exact absurd rfl h | rfl) fun _ => ?_
  exact fun _ => rfl

end Builder

end LocalePages
