import DocTree.Node
set_option autoImplicit false

/-!
# Element: the classes of elements

The rules of tree construction speak of elements by class.  A class is a list of
local names in the HTML namespace; a few elements of other languages, inside which
HTML may stand, are added where a rule says so.
-/

namespace DocTree

namespace QName

/-- The name is one of these in the HTML namespace. -/
def isHtml (tags : List String) (n : QName) : Bool := n.space == htmlSpace && tags.contains n.name

/-- The name is one of these in the SVG namespace. -/
def isSvg (tags : List String) (n : QName) : Bool := n.space == svgSpace && tags.contains n.name

/-- The name is one of these in the MathML namespace. -/
def isMath (tags : List String) (n : QName) : Bool := n.space == mathSpace && tags.contains n.name

end QName

namespace Html

/-! ## Elements of other languages inside which HTML stands -/

/-- Mathematical elements that hold text. -/
def holdsMathText (n : QName) : Bool := n.isMath ["mi", "mo", "mn", "ms", "mtext"]

/-- Graphical elements that hold markup. -/
def holdsSvgMarkup (n : QName) : Bool := n.isSvg ["foreignObject", "desc", "title"]

/-- HTML itself, and what holds it elsewhere. -/
def admitsHtml (n : QName) : Bool :=
  n.space == QName.htmlSpace || holdsMathText n || holdsSvgMarkup n

/-! ## Scopes: where the search for an open element ends -/

def endsScope (n : QName) : Bool :=
  n.isHtml ["applet", "caption", "html", "table", "td", "th", "marquee", "object", "select",
    "template"] || holdsMathText n || holdsSvgMarkup n

def endsItemScope (n : QName) : Bool := endsScope n || n.isHtml ["ol", "ul"]

def endsButtonScope (n : QName) : Bool := endsScope n || n.isHtml ["button"]

def endsTableScope (n : QName) : Bool := n.isHtml ["html", "table", "template"]

def endsTableBodyScope (n : QName) : Bool :=
  n.isHtml ["tbody", "tfoot", "thead", "template", "html"]

def endsRowScope (n : QName) : Bool := n.isHtml ["tr", "template", "html"]

/-! ## Classes of local names -/

/-- Elements that a missing end tag of another one closes. -/
def impliedEnds : List String :=
  ["dd", "dt", "li", "option", "optgroup", "p", "rb", "rp", "rt", "rtc"]

/-- The same for the end of a template. -/
def thoroughImpliedEnds : List String :=
  impliedEnds ++ ["caption", "colgroup", "tbody", "td", "tfoot", "th", "thead", "tr"]

def headings : List String := ["h1", "h2", "h3", "h4", "h5", "h6"]

def cells : List String := ["td", "th"]

def rowGroups : List String := ["tbody", "tfoot", "thead"]

/-- Elements beside which, not inside which, stray content of a table goes. -/
def tableParts : List String := ["table", "tbody", "tfoot", "thead", "tr"]

/-- Elements that a misplaced end tag does not reach across. -/
def special : List String :=
  ["address", "applet", "area", "article", "aside", "base", "basefont", "bgsound", "blockquote",
    "body", "br", "button", "caption", "center", "col", "colgroup", "dd", "details", "dir", "div",
    "dl", "dt", "embed", "fieldset", "figcaption", "figure", "footer", "form", "frame", "frameset",
    "h1", "h2", "h3", "h4", "h5", "h6", "head", "header", "hgroup", "hr", "html", "iframe", "img",
    "input", "isindex", "li", "link", "listing", "main", "marquee", "menu", "meta", "nav",
    "noembed", "noframes", "noscript", "object", "ol", "p", "param", "plaintext", "pre", "script",
    "section", "select", "source", "style", "summary", "table", "tbody", "td", "template", "textarea",
    "tfoot", "th", "thead", "title", "tr", "track", "ul", "wbr", "xmp"]

/-- Elements that stop the search for an open list item or description. -/
def stopsItemSearch : List String :=
  special.filter fun tag => tag != "address" && tag != "div" && tag != "p"

/-- Elements that hold no others and have their place in the head. -/
def headVoids : List String := ["base", "basefont", "bgsound", "link", "meta"]

/-- Elements of the head, wherever they are met. -/
def headElements : List String :=
  headVoids ++ ["noframes", "script", "style", "template", "title"]

/-- Blocks that end an open paragraph. -/
def blocks : List String :=
  ["address", "article", "aside", "blockquote", "center", "details", "dialog", "dir", "div", "dl",
    "fieldset", "figcaption", "figure", "footer", "header", "hgroup", "main", "menu", "nav", "ol",
    "p", "search", "section", "summary", "ul"]

/-- Blocks that an end tag closes with all that is open inside. -/
def closableBlocks : List String :=
  (blocks.filter fun tag => tag != "p") ++ ["button", "listing", "pre", "select"]

/-- Elements that are opened again inside a block that cuts through them. -/
def formattingTags : List String :=
  ["b", "big", "code", "em", "font", "i", "s", "small", "strike", "strong", "tt", "u"]

/-- Elements inside which earlier formatting is not opened again. -/
def enclosures : List String := ["applet", "marquee", "object"]

/-- Elements without content, placed like characters. -/
def voids : List String := ["area", "br", "embed", "img", "keygen", "wbr"]

/-- Elements without content that do not count as content of a body. -/
def quietVoids : List String := ["param", "source", "track"]

/-- Parts of other structures, ignored in a body. -/
def strayParts : List String :=
  ["caption", "col", "colgroup", "frame", "head", "tbody", "td", "tfoot", "th", "thead", "tr"]

/-- Start tags that lead out of an element of another language. -/
def leadsOut : List String :=
  ["b", "big", "blockquote", "body", "br", "center", "code", "dd", "div", "dl", "dt", "em", "embed",
    "h1", "h2", "h3", "h4", "h5", "h6", "head", "hr", "i", "img", "li", "listing", "menu", "meta",
    "nobr", "ol", "p", "pre", "ruby", "s", "small", "span", "strong", "strike", "sub", "sup",
    "table", "tt", "u", "ul", "var"]

end Html

end DocTree
