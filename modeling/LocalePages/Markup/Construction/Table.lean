import LocalePages.Markup.Construction.Body

/-!
# Tables and lists of choices

The rules inside tables make up the parts that tags leave out and put before the table what cannot be in one. The rules inside a
list of choices drop most tags.
-/

namespace LocalePages

namespace Builder

/-- Asks the rule of the body about a piece that cannot be in a table. -/
def fostered (b : Builder) (p : Piece) : Outcome :=
  match { b with fosters := true }.inBody p with
  | .settled b => .settled { b with fosters := false }
  | .again b => .again { b with fosters := false }

/-- Asks about text in a table: directly in the table or one of its larger parts it is collected first. -/
def tableTextOr (b : Builder) (p : Piece) : Outcome :=
  if b.currentIs ["table", "tbody", "tfoot", "thead", "tr"] then { b with back := b.mode }.retry .inTableText else b.fostered p

/-- The rule in a table. -/
def inTable (b : Builder) (p : Piece) : Outcome :=
  let clear := b.popTo ["table", "template", "html"]
  match p with
  | .null => b.tableTextOr p
  | .space _ => b.tableTextOr p
  | .words _ => b.tableTextOr p
  | .comment t => .settled (b.addComment t)
  | .start tag =>
    let n := tag.name
    if n = "caption" then .settled { clear.addBorder.openTag tag with mode := .inCaption }
    else if n = "colgroup" then .settled { clear.openTag tag with mode := .inColumnGroup }
    else if n = "col" then (clear.openImplied "colgroup").retry .inColumnGroup
    else if n.isOneOf ["tbody", "tfoot", "thead"] then .settled { clear.openTag tag with mode := .inTableBody }
    else if n.isOneOf ["td", "th", "tr"] then (clear.openImplied "tbody").retry .inTableBody
    else if n = "table" then
      if b.tableHas "table" then .again (b.popTag "table").resetMode else .settled b
    else if n.isOneOf ["style", "script", "template"] then b.inHead p
    else if n = "input" && isHidden tag then .settled (b.addTag tag)
    else if n = "form" then
      if b.form.isSome || b.isOpen "template" then .settled b
      else
        let (b, i) := b.addElement (.html n) (plainAttrs tag.attrs)
        .settled { b with form := some i }
    else b.fostered p
  | .close n =>
    if n = "table" then .settled (if b.tableHas "table" then (b.popTag "table").resetMode else b)
    else if n.isOneOf ["body", "caption", "col", "colgroup", "html", "tbody", "td", "tfoot", "th", "thead", "tr"] then .settled b
    else if n = "template" then b.inHead p
    else b.fostered p
  | .done => b.inBody p

/-- Puts the text that was collected in a table where it belongs: into the table if all of it is blank. -/
def flushTableText (b : Builder) : Builder :=
  let runs := b.tableText
  let b := { b with tableText := [] }
  if runs.all fun t => t.all isBlank then runs.foldl addText b
  else runs.foldl (fun b t =>
    match b.fostered (if t.all isBlank then .space t else .words t) with
    | .settled b => b
    | .again b => b) b

/-- The rule for the text of a table. -/
def inTableText (b : Builder) : Piece → Outcome
  | .null => .settled b
  | .space t => .settled { b with tableText := b.tableText ++ [t] }
  | .words t => .settled { b with tableText := b.tableText ++ [t] }
  | _ =>
    let b := b.flushTableText
    b.retry b.back

/-- The rule in the caption of a table. -/
def inCaption (b : Builder) (p : Piece) : Outcome :=
  let ends (again : Bool) : Outcome :=
    if b.tableHas "caption" then
      let b := (b.endSilently.popTag "caption").clearToBorder
      if again then b.retry .inTable else .settled { b with mode := .inTable }
    else .settled b
  match p with
  | .start tag =>
    if tag.name.isOneOf ["caption", "col", "colgroup", "tbody", "td", "tfoot", "th", "thead", "tr"] then ends true else b.inBody p
  | .close name =>
    if name = "caption" then ends false
    else if name = "table" then ends true
    else if name.isOneOf ["body", "col", "colgroup", "html", "tbody", "td", "tfoot", "th", "thead", "tr"] then .settled b
    else b.inBody p
  | _ => b.inBody p

/-- The rule in a group of columns. -/
def inColumnGroup (b : Builder) (p : Piece) : Outcome :=
  let otherwise := if b.currentIs ["colgroup"] then b.pop.retry .inTable else .settled b
  match p with
  | .space t => .settled (b.addText t)
  | .comment t => .settled (b.addComment t)
  | .start tag =>
    if tag.name = "html" then .settled (b.mergeRoot tag)
    else if tag.name = "col" then .settled (b.addTag tag)
    else if tag.name = "template" then b.inHead p
    else otherwise
  | .close name =>
    if name = "colgroup" then .settled (if b.currentIs ["colgroup"] then { b.pop with mode := .inTable } else b)
    else if name = "col" then .settled b
    else if name = "template" then b.inHead p
    else otherwise
  | .done => b.inBody p
  | _ => otherwise

/-- The rule in a group of rows. -/
def inTableBody (b : Builder) (p : Piece) : Outcome :=
  let clear := b.popTo ["tbody", "tfoot", "thead", "template", "html"]
  let leave : Outcome :=
    if b.inScope ElementName.endsTableScope (·.isHtml ["table", "tbody", "tfoot"]) then clear.pop.retry .inTable else .settled b
  match p with
  | .start tag =>
    if tag.name = "tr" then .settled { clear.openTag tag with mode := .inRow }
    else if tag.name.isOneOf ["th", "td"] then (clear.openImplied "tr").retry .inRow
    else if tag.name.isOneOf ["caption", "col", "colgroup", "tbody", "tfoot", "thead"] then leave
    else b.inTable p
  | .close name =>
    if name.isOneOf ["tbody", "tfoot", "thead"] then .settled (if b.tableHas name then { clear.pop with mode := .inTable } else b)
    else if name = "table" then leave
    else if name.isOneOf ["body", "caption", "col", "colgroup", "html", "td", "th", "tr"] then .settled b
    else b.inTable p
  | _ => b.inTable p

/-- The rule in a row. -/
def inRow (b : Builder) (p : Piece) : Outcome :=
  let clear := b.popTo ["tr", "template", "html"]
  let leave : Outcome := if b.tableHas "tr" then clear.pop.retry .inTableBody else .settled b
  match p with
  | .start tag =>
    if tag.name.isOneOf ["th", "td"] then .settled { (clear.openTag tag).addBorder with mode := .inCell }
    else if tag.name.isOneOf ["caption", "col", "colgroup", "tbody", "tfoot", "thead", "tr"] then leave
    else b.inTable p
  | .close name =>
    if name = "tr" then .settled (if b.tableHas "tr" then { clear.pop with mode := .inTableBody } else b)
    else if name = "table" then leave
    else if name.isOneOf ["tbody", "tfoot", "thead"] then (if b.tableHas name then leave else .settled b)
    else if name.isOneOf ["body", "caption", "col", "colgroup", "html", "td", "th"] then .settled b
    else b.inTable p
  | _ => b.inTable p

/-- The rule in a cell. -/
def inCell (b : Builder) (p : Piece) : Outcome :=
  match p with
  | .start tag =>
    if tag.name.isOneOf ["caption", "col", "colgroup", "tbody", "td", "tfoot", "th", "thead", "tr"] then
      if b.inScope ElementName.endsTableScope (·.isHtml ["td", "th"]) then b.closeCell.retry .inRow else .settled b
    else b.inBody p
  | .close name =>
    if name.isOneOf ["td", "th"] then
      .settled (if b.tableHas name then { (b.endSilently.popTag name).clearToBorder with mode := .inRow } else b)
    else if name.isOneOf ["body", "caption", "col", "colgroup", "html"] then .settled b
    else if name.isOneOf ["table", "tbody", "tfoot", "thead", "tr"] then
      if b.tableHas name then b.closeCell.retry .inRow else .settled b
    else b.inBody p
  | _ => b.inBody p

/-- Closes the list of choices that is open. -/
def leaveSelect (b : Builder) : Builder := (b.popTag "select").resetMode

/-- The rule in a list of choices. -/
def inSelect (b : Builder) (p : Piece) : Outcome :=
  let inChoices := b.inScope ElementName.endsSelectScope (·.isHtml ["select"])
  let leaving (b : Builder) (tag : Text) : Builder := if b.currentIs [tag] then b.pop else b
  match p with
  | .null => .settled b
  | .space t => .settled (b.addText t)
  | .words t => .settled (b.addText t)
  | .comment t => .settled (b.addComment t)
  | .start tag =>
    let n := tag.name
    if n = "html" then .settled (b.mergeRoot tag)
    else if n = "option" then .settled ((leaving b "option").openTag tag)
    else if n = "optgroup" then .settled ((leaving (leaving b "option") "optgroup").openTag tag)
    else if n = "select" then .settled (if inChoices then b.leaveSelect else b)
    else if n.isOneOf ["input", "keygen", "textarea"] then (if inChoices then .again b.leaveSelect else .settled b)
    else if n.isOneOf ["script", "template"] then b.inHead p
    else .settled b
  | .close n =>
    if n = "optgroup" then
      let second := (b.stack[1]?).map b.nameOf
      let inGroup := match second with
        | some name => name.isHtml ["optgroup"]
        | none => false
      let b := if inGroup then leaving b "option" else b
      .settled (leaving b "optgroup")
    else if n = "option" then .settled (leaving b "option")
    else if n = "select" then .settled (if inChoices then b.leaveSelect else b)
    else if n = "template" then b.inHead p
    else .settled b
  | .done => b.inBody p

/-- The rule in a list of choices inside a table. -/
def inSelectInTable (b : Builder) (p : Piece) : Outcome :=
  let parts : List Text := ["caption", "table", "tbody", "tfoot", "thead", "tr", "td", "th"]
  match p with
  | .start tag => if tag.name.isOneOf parts then .again b.leaveSelect else b.inSelect p
  | .close name =>
    if name.isOneOf parts then (if b.tableHas name then .again b.leaveSelect else .settled b) else b.inSelect p
  | _ => b.inSelect p

end Builder

end LocalePages
