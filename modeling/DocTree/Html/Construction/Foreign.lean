import DocTree.Html.Construction.Body
set_option autoImplicit false

/-!
# Foreign: the rules inside elements of other languages

SVG and MathML stand in HTML under rules of their own, which hand tokens back to
HTML inside certain elements and for certain tags.
-/

namespace DocTree.Html

/-- A token meets the rules for other languages than HTML. -/
def Construction.isForeignToken (c : Construction) (token : Token) : Bool :=
  let name := c.currentName
  let characters : Bool :=
    match token with
    | .space _ | .text _ | .nul => true
    | _ => false
  let start? : Option String :=
    match token with
    | .startTag tag => some tag.name
    | _ => none
  if token == .ending || !c.inForeign then false
  else if holdsMathText name &&
      (characters || start?.any fun tag => tag != "mglyph" && tag != "malignmark") then false
  else if holdsSvgMarkup name && (characters || start?.isSome) then false
  else !(name.isMath ["annotation-xml"] && start? == some "svg")

namespace Build

/-- Opens the element of a tag in the language of the current element. -/
def startForeign (tag : Tag) : Build Outcome := do
  let space ← ask fun c => c.currentName.space
  openForeign space { tag with name := foreignElement space tag.name }
  return .done

/-- Closes elements until HTML may stand in the current one. -/
def leaveForeign : Build Unit := popUntilCurrent admitsHtml

/-- The tag changes the font, which only HTML can. -/
def changesFont (tag : Tag) : Bool :=
  tag.name = "font" && tag.attrs.any fun a => ["color", "face", "size"].contains a.name.name

/-- What an end tag means among the open elements of another language: it closes the
nearest one of this name, unless an HTML element is nearer, whose rules it then meets. -/
def endForeign? (c : Construction) (name : String) (first : Bool) :
    List NodeId → Option (Option (List NodeId))
  | [] => some none
  | [_] => some none
  | id :: outer =>
    let n := c.nameOf id
    if !first && n.space == QName.htmlSpace then none
    else if lower n.name == name then some (some outer)
    else endForeign? c name false outer

end Build

end DocTree.Html
