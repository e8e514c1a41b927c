import LocalePages.Markup.Node

/-!
# Classes of elements

The rules of tree construction speak of elements by class: those that end the search for an open element, those whose end tag may
be left out, those that markup of formatting does not reach past. This module also holds the spellings of foreign markup, whose
names keep capitals although tags are read without case.
-/

namespace LocalePages

/-- Whether a text is one of a list. -/
def Text.isOneOf (t : Text) (list : List Text) : Bool := list.contains t

namespace ElementName

/-- An element of ordinary markup. -/
def html (tag : Text) : ElementName := ⟨.html, tag⟩

/-- Whether it is an element of ordinary markup with one of some names. -/
def isHtml (n : ElementName) (tags : List Text) : Bool := n.space == .html && n.tag.isOneOf tags

/-- The headings. -/
def headingTags : List Text := ["h1", "h2", "h3", "h4", "h5", "h6"]

/-- The elements that formatting does not reach past. -/
def specialTags : List Text :=
  (["address", "applet", "area", "article", "aside", "base", "basefont", "bgsound", "blockquote", "body", "br", "button",
    "caption", "center", "col", "colgroup", "dd", "details", "dir", "div", "dl", "dt", "embed", "fieldset", "figcaption",
    "figure", "footer", "form", "frame", "frameset", "h1", "h2", "h3", "h4", "h5", "h6", "head", "header", "hgroup", "hr", "html",
    "iframe", "img", "input", "isindex", "li", "link", "listing", "main", "marquee", "menu", "meta", "nav", "noembed", "noframes",
    "noscript", "object", "ol", "p", "param", "plaintext", "pre", "script", "section", "select", "source", "style", "summary",
    "table", "tbody", "td", "template", "textarea", "tfoot", "th", "thead", "title", "tr", "track", "ul", "wbr",
    "xmp"] : List String).map String.toList

/-- Whether it is an element that formatting does not reach past. -/
def isSpecial (n : ElementName) : Bool := n.isHtml specialTags

/-- Whether text inside it is ordinary markup although it is an element of mathematics. -/
def isMathText (n : ElementName) : Bool := n.space == .mathml && n.tag.isOneOf ["mi", "mo", "mn", "ms", "mtext"]

/-- Whether what is inside it is ordinary markup although it is an element of a drawing. -/
def holdsHtml (n : ElementName) : Bool := n.space == .svg && n.tag.isOneOf ["foreignObject", "desc", "title"]

/-! ## Where the search for an open element ends -/

/-- The search for most elements. -/
def endsScope (n : ElementName) : Bool :=
  n.isHtml ["applet", "caption", "html", "table", "td", "th", "marquee", "object", "template"] || n.isMathText || n.holdsHtml

/-- The search for an item of a list. -/
def endsItemScope (n : ElementName) : Bool := n.endsScope || n.isHtml ["ol", "ul"]

/-- The search for a paragraph. -/
def endsButtonScope (n : ElementName) : Bool := n.endsScope || n.isHtml ["button"]

/-- The search for a part of a table. -/
def endsTableScope (n : ElementName) : Bool := n.isHtml ["html", "table", "template"]

/-- The search for a list of choices. -/
def endsSelectScope (n : ElementName) : Bool := !n.isHtml ["optgroup", "option"]

/-! ## Elements that are closed without an end tag -/

/-- Whether its end tag may be left out almost everywhere. -/
def endsSilently (n : ElementName) : Bool :=
  n.isHtml ["dd", "dt", "li", "option", "optgroup", "p", "rb", "rp", "rt", "rtc"]

end ElementName

/-! ## Foreign markup -/

/-- The elements of drawings that are spelled with capitals. -/
def drawingTags : List Text :=
  (["altGlyph", "altGlyphDef", "altGlyphItem", "animateColor", "animateMotion", "animateTransform", "clipPath", "feBlend",
    "feColorMatrix", "feComponentTransfer", "feComposite", "feConvolveMatrix", "feDiffuseLighting", "feDisplacementMap",
    "feDistantLight", "feDropShadow", "feFlood", "feFuncA", "feFuncB", "feFuncG", "feFuncR", "feGaussianBlur", "feImage",
    "feMerge", "feMergeNode", "feMorphology", "feOffset", "fePointLight", "feSpecularLighting", "feSpotLight", "feTile",
    "feTurbulence", "foreignObject", "glyphRef", "linearGradient", "radialGradient", "textPath"] : List String).map String.toList

/-- The attributes of drawings that are spelled with capitals. -/
def drawingAttrs : List Text :=
  (["attributeName", "attributeType", "baseFrequency", "baseProfile", "calcMode", "clipPathUnits", "diffuseConstant", "edgeMode",
    "filterUnits", "glyphRef", "gradientTransform", "gradientUnits", "kernelMatrix", "kernelUnitLength", "keyPoints",
    "keySplines", "keyTimes", "lengthAdjust", "limitingConeAngle", "markerHeight", "markerUnits", "markerWidth",
    "maskContentUnits", "maskUnits", "numOctaves", "pathLength", "patternContentUnits", "patternTransform", "patternUnits",
    "pointsAtX", "pointsAtY", "pointsAtZ", "preserveAlpha", "preserveAspectRatio", "primitiveUnits", "refX", "refY",
    "repeatCount", "repeatDur", "requiredExtensions", "requiredFeatures", "specularConstant", "specularExponent",
    "spreadMethod", "startOffset", "stdDeviation", "stitchTiles", "surfaceScale", "systemLanguage", "tableValues", "targetX",
    "targetY", "textLength", "viewBox", "viewTarget", "xChannelSelector", "yChannelSelector",
    "zoomAndPan"] : List String).map String.toList

/-- The attributes of mathematics that are spelled with capitals. -/
def mathAttrs : List Text := ["definitionURL"]

/-- A name as it is spelled, when it is one of a list without case. -/
def spelled (spellings : List Text) (name : Text) : Text :=
  (spellings.find? fun s => Text.lower s == name).getD name

/-- The attributes of foreign markup that belong to a vocabulary, by the names they are written with. -/
def foreignAttrs : List (Text × AttrSpace × Text) :=
  [("xlink:actuate", .xlink, "actuate"), ("xlink:arcrole", .xlink, "arcrole"), ("xlink:href", .xlink, "href"),
    ("xlink:role", .xlink, "role"), ("xlink:show", .xlink, "show"), ("xlink:title", .xlink, "title"),
    ("xlink:type", .xlink, "type"), ("xml:base", .xml, "base"), ("xml:lang", .xml, "lang"), ("xml:space", .xml, "space"),
    ("xmlns", .xmlns, "xmlns"), ("xmlns:xlink", .xmlns, "xlink")]

/-- The attributes of a tag of ordinary markup. -/
def plainAttrs (attrs : List (Text × Text)) : List Attr := attrs.map fun (name, value) => ⟨.none, name, value⟩

/-- The attributes of a tag of foreign markup. -/
def foreignAttrsOf (space : Space) (attrs : List (Text × Text)) : List Attr :=
  attrs.map fun (name, value) =>
    let name := match space with
      | .svg => spelled drawingAttrs name
      | .mathml => spelled mathAttrs name
      | .html => name
    match foreignAttrs.lookup name with
    | some (space, name) => ⟨space, name, value⟩
    | none => ⟨.none, name, value⟩

end LocalePages
