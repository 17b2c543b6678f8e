import DocTree.Html.Token
set_option autoImplicit false

/-!
# ForeignNames: names of SVG and MathML as those languages write them

Markup is read without regard to case, but SVG and MathML have names with capital
letters, and attributes with qualifiers.  The tables give them back.
-/

namespace DocTree.Html

/-- The namespace of links. -/
def linkSpace : String := "http://www.w3.org/1999/xlink"

/-- The namespace of the attributes that every such language has. -/
def commonSpace : String := "http://www.w3.org/XML/1998/namespace"

/-- The namespace of declarations of namespaces. -/
def declarationSpace : String := "http://www.w3.org/2000/xmlns/"

/-- Names of SVG elements; each is met in lower case. -/
def svgElementNames : List String :=
  ["altGlyph", "altGlyphDef", "altGlyphItem", "animateColor", "animateMotion", "animateTransform",
    "clipPath", "feBlend", "feColorMatrix", "feComponentTransfer", "feComposite",
    "feConvolveMatrix", "feDiffuseLighting", "feDisplacementMap", "feDistantLight", "feDropShadow",
    "feFlood", "feFuncA", "feFuncB", "feFuncG", "feFuncR", "feGaussianBlur", "feImage", "feMerge",
    "feMergeNode", "feMorphology", "feOffset", "fePointLight", "feSpecularLighting", "feSpotLight",
    "feTile", "feTurbulence", "foreignObject", "glyphRef", "linearGradient", "radialGradient",
    "textPath"]

/-- Names of SVG attributes; each is met in lower case. -/
def svgAttrNames : List String :=
  ["attributeName", "attributeType", "baseFrequency", "baseProfile", "calcMode", "clipPathUnits",
    "diffuseConstant", "edgeMode", "filterUnits", "glyphRef", "gradientTransform", "gradientUnits",
    "kernelMatrix", "kernelUnitLength", "keyPoints", "keySplines", "keyTimes", "lengthAdjust",
    "limitingConeAngle", "markerHeight", "markerUnits", "markerWidth", "maskContentUnits",
    "maskUnits", "numOctaves", "pathLength", "patternContentUnits", "patternTransform",
    "patternUnits", "pointsAtX", "pointsAtY", "pointsAtZ", "preserveAlpha", "preserveAspectRatio",
    "primitiveUnits", "refX", "refY", "repeatCount", "repeatDur", "requiredExtensions",
    "requiredFeatures", "specularConstant", "specularExponent", "spreadMethod", "startOffset",
    "stdDeviation", "stitchTiles", "surfaceScale", "systemLanguage", "tableValues", "targetX",
    "targetY", "textLength", "viewBox", "viewTarget", "xChannelSelector", "yChannelSelector",
    "zoomAndPan"]

/-- Names of MathML attributes; each is met in lower case. -/
def mathAttrNames : List String := ["definitionURL"]

/-- The name of the list that is written like this but for case. -/
def asListed (names : List String) (name : String) : String :=
  (names.find? fun listed => lower listed == name).getD name

/-- Attributes with qualifiers, by the way they are met.  The qualifier of `xmlns` is
there, but empty. -/
def qualifiedAttr? (name : String) : Option QName :=
  let link (local_ : String) : QName := ⟨some "xlink", linkSpace, local_⟩
  match name with
  | "xlink:actuate" => some (link "actuate")
  | "xlink:arcrole" => some (link "arcrole")
  | "xlink:href" => some (link "href")
  | "xlink:role" => some (link "role")
  | "xlink:show" => some (link "show")
  | "xlink:title" => some (link "title")
  | "xlink:type" => some (link "type")
  | "xml:lang" => some ⟨some "xml", commonSpace, "lang"⟩
  | "xml:space" => some ⟨some "xml", commonSpace, "space"⟩
  | "xmlns" => some ⟨some "", declarationSpace, "xmlns"⟩
  | "xmlns:xlink" => some ⟨some "xmlns", declarationSpace, "xlink"⟩
  | _ => none

/-- The attributes of an element in the namespace `space`. -/
def foreignAttrs (space : String) (attrs : List Attr) : List Attr :=
  attrs.map fun a =>
    let name :=
      if space == QName.svgSpace then asListed svgAttrNames a.name.name
      else if space == QName.mathSpace then asListed mathAttrNames a.name.name
      else a.name.name
    { a with name := (qualifiedAttr? name).getD (.plain name) }

/-- The local name of an element in the namespace `space`. -/
def foreignElement (space name : String) : String :=
  if space == QName.svgSpace then asListed svgElementNames name else name

end DocTree.Html
