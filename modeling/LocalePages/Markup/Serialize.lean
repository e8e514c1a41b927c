import LocalePages.Markup.Construction.ElementClass

/-!
# Writing markup

A tree is written in one way: attributes in double quotes and in the order of their names, no end tag for an element that can
hold nothing, and a reference only for a character that could not be read back as itself. Text directly inside an element that is
read without references is written as it is.
-/

namespace LocalePages

/-- A character of text as it is written. -/
def escapedTextChar (c : Char) : Text :=
  if c = '&' then "&amp;" else if c = '\u00a0' then "&nbsp;" else if c = '<' then "&lt;" else if c = '>' then "&gt;" else [c]

/-- A character of an attribute's value as it is written. -/
def escapedAttrChar (c : Char) : Text :=
  if c = '&' then "&amp;" else if c = '\u00a0' then "&nbsp;" else if c = '"' then "&quot;" else [c]

/-- What is written before the name of an attribute. -/
def Attr.mark (a : Attr) : Text :=
  match a.space with
  | .none => ""
  | .xlink => "xlink:"
  | .xmlns => if a.name = "xmlns" then "" else "xmlns:"
  | .xml => "xml:"

/-- An attribute as it is written. -/
def Attr.written (a : Attr) : Text := " " ++ a.mark ++ a.name ++ "=\"" ++ a.value.flatMap escapedAttrChar ++ "\""

/-- Whether an element can hold nothing, so that it has no end tag. -/
def ElementName.isVoid (n : ElementName) : Bool :=
  n.isHtml ["area", "base", "basefont", "bgsound", "br", "col", "embed", "frame", "hr", "img", "input", "keygen", "link", "meta",
    "param", "source", "track", "wbr"]

/-- Whether text directly inside an element is written as it is. -/
def ElementName.isRaw (n : ElementName) : Bool :=
  n.isHtml ["style", "script", "xmp", "iframe", "noembed", "noframes", "plaintext", "noscript"]

/-- How a node is written inside an element: whether text is written as it is, and whether tags are left out because an element
that can hold nothing is around them. -/
structure WriteContext where
  raw : Bool
  void : Bool

/-- The start of a document. -/
def WriteContext.outside : WriteContext := ⟨false, false⟩

/-- The inside of an element. -/
def WriteContext.inside (outer : WriteContext) (n : ElementName) : WriteContext := ⟨n.isRaw, outer.void || n.isVoid⟩

/-- A start tag as it is written. -/
def startTagText (n : ElementName) (attrs : Attrs) : Text := "<" ++ n.tag ++ attrs.flatMap Attr.written ++ ">"

mutual

/-- A node as it is written, and a text after it. -/
def Node.writtenBefore (after : Text) (ctx : WriteContext) : Node → Text
  | .element n attrs children =>
    if ctx.void then writtenAllBefore after (ctx.inside n) children
    else if n.isVoid then startTagText n attrs ++ writtenAllBefore after (ctx.inside n) children
    else startTagText n attrs ++ writtenAllBefore ("</" ++ n.tag ++ (">" ++ after)) (ctx.inside n) children
  | .text t => (if ctx.raw then t else t.flatMap escapedTextChar) ++ after
  | .comment t => "<!--" ++ t ++ ("-->" ++ after)
  | .doctype name => "<!DOCTYPE " ++ name ++ (">" ++ after)

/-- Nodes as they are written one after the other, and a text after them. Writing what comes after a node first, so that the node
is put before it, takes time in proportion to the text and not to the depth of the tree. -/
def Node.writtenAllBefore (after : Text) (ctx : WriteContext) : List Node → Text
  | [] => after
  | n :: rest => n.writtenBefore (writtenAllBefore after ctx rest) ctx

end

/-- A node as it is written. -/
def Node.written (ctx : WriteContext) (n : Node) : Text := n.writtenBefore [] ctx

/-- Nodes as they are written, one after the other. -/
def Node.writtenAll (ctx : WriteContext) (nodes : List Node) : Text := writtenAllBefore [] ctx nodes

end LocalePages
