import DocTree.Html.Construction.Formatting
import DocTree.Html.Construction.Head
import DocTree.Html.ForeignNames
set_option autoImplicit false

/-!
# Body: the rules for the content of a body

Most content is met by the rules of this module, also inside of tables and
templates, whose own rules hand on what they do not know.
-/

namespace DocTree.Html

namespace Build

/-! ## Small rules -/

/-- Opens the element of a tag inside the formatting elements that apply here. -/
def openInline (tag : Tag) : Build Unit := do
  reopenFormatting
  openFor tag

/-- Places the element of a tag inside the formatting elements that apply here. -/
def placeInline (tag : Tag) : Build Unit := do
  reopenFormatting
  placeTag tag

/-- Opens the element of a tag as a block, which ends an open paragraph. -/
def openBlock (tag : Tag) : Build Unit := do
  closeParagraph
  openFor tag

/-- The tag is one of an input field that is not shown. -/
def isHidden (tag : Tag) : Bool := (tag.attr? "type").any fun value => lower value == "hidden"

/-- Opens an element of another language; one that closes itself is only placed. -/
def openForeign (space : String) (tag : Tag) : Build Unit := do
  let name : QName := ⟨none, space, tag.name⟩
  let attrs := foreignAttrs space tag.attrs
  if tag.selfClosing then
    let _ ← placeElement name attrs
  else
    let _ ← openElement name attrs

/-! ## Start tags -/

/-- A heading does not stand in a heading. -/
def startHeading (tag : Tag) : Build Unit := do
  closeParagraph
  if ← ask fun c => c.currentIs headings then pop
  openFor tag

/-- Forms do not nest outside of templates. -/
def startForm (tag : Tag) : Build Unit := do
  let inTemplate ← ask fun c => c.hasOpen "template"
  if inTemplate || (← ask fun c => c.form.isNone) then
    closeParagraph
    let id ← openTag tag
    if !inTemplate then modify fun c => { c with form := some id }

/-- The nearest open element named in `tags`, unless the search is stopped before. -/
def openItem? (c : Construction) (tags : List String) : List NodeId → Option String
  | [] => none
  | id :: outer =>
    let name := c.nameOf id
    if name.isHtml tags then some name.name
    else if name.isHtml stopsItemSearch then none
    else openItem? c tags outer

/-- An item closes the item of the same list that is still open. -/
def startItem (tags : List String) (tag : Tag) : Build Unit := do
  forbidFrameset
  match ← ask fun c => openItem? c tags c.openElements with
  | some open_ => closeImplied open_
  | none => pure ()
  openBlock tag

/-- Buttons do not nest. -/
def startButton (tag : Tag) : Build Unit := do
  if ← ask fun c => c.hasInScope endsScope ["button"] then
    impliedEnds Html.impliedEnds
    popUntilTag ["button"]
  openInline tag
  forbidFrameset

/-- A selection begins; inside of another one it ends that one instead. -/
def startSelect (tag : Tag) : Build Unit := do
  if ← ask fun c => c.hasInScope endsScope ["select"] then popUntilTag ["select"]
  else
    openInline tag
    forbidFrameset

/-- An option or a group of options. -/
def startOption (tag : Tag) : Build Unit := do
  if ← ask fun c => c.hasInScope endsScope ["select"] then
    if tag.name = "option" then impliedEndsExcept "optgroup" else impliedEnds Html.impliedEnds
  else if ← ask fun c => c.currentIs ["option"] then pop
  openInline tag

/-- An input field ends an open selection. -/
def startInput (tag : Tag) : Build Unit := do
  if ← ask fun c => c.hasInScope endsScope ["select"] then popUntilTag ["select"]
  placeInline tag
  if !isHidden tag then forbidFrameset

/-- A rule between paragraphs. -/
def startRule (tag : Tag) : Build Unit := do
  closeParagraph
  if ← ask fun c => c.hasInScope endsScope ["select"] then impliedEnds Html.impliedEnds
  placeTag tag
  forbidFrameset

/-- Parts of an annotation of characters. -/
def startRuby (tag : Tag) : Build Unit := do
  if ← ask fun c => c.hasInScope endsScope ["ruby"] then
    if ["rb", "rtc"].contains tag.name then impliedEnds Html.impliedEnds
    else impliedEndsExcept "rtc"
  openFor tag

/-- A frameset takes the place of the body as long as this holds nothing. -/
def startFrameset (tag : Tag) : Build Unit := do
  let c ← get
  if c.framesetOk then
    match c.body? with
    | none => pure ()
    | some body =>
      edit (Edit.detach body)
      modify fun c => { c with openElements := [c.outermost] }
      openFor tag
      setMode .inFrameset

/-- A further tag of the body adds the attributes that it lacks. -/
def startBodyAgain (tag : Tag) : Build Unit :=
  modify fun c =>
    match c.body? with
    | some body =>
      if c.hasOpen "template" then c
      else { c with framesetOk := false, tree := c.tree.fillAttrs body tag.attrs }
    | none => c

/-- A line break and other elements that are placed like characters. -/
def startVoid (tag : Tag) : Build Unit := do
  placeInline tag
  forbidFrameset

def startTable (tag : Tag) : Build Unit := do
  if ← ask fun c => c.documentMode != .legacy then closeParagraph
  openFor tag
  forbidFrameset
  setMode .inTable

/-- Preformatted text; a newline at its beginning does not count. -/
def startPreformatted (tag : Tag) : Build Unit := do
  openBlock tag
  modify fun c => { c with skipNewline := true, framesetOk := false }

/-- A field for text; a newline at its beginning does not count. -/
def startTextarea (tag : Tag) : Build Unit := do
  modify fun c => { c with skipNewline := true, framesetOk := false }
  openText tag (.escapable tag.name)

def startInBody (tag : Tag) : Build Unit := do
  let name := tag.name
  if name = "body" then startBodyAgain tag
  else if name = "frameset" then startFrameset tag
  else if blocks.contains name then openBlock tag
  else if headings.contains name then startHeading tag
  else if ["pre", "listing"].contains name then startPreformatted tag
  else if name = "form" then startForm tag
  else if name = "li" then startItem ["li"] tag
  else if ["dd", "dt"].contains name then startItem ["dd", "dt"] tag
  else if name = "plaintext" then
    openBlock tag
    modify fun c => { c with content := .plain }
  else if name = "button" then startButton tag
  else if name = "a" then
    endOpenAnchor
    reopenFormatting
    openFormatting tag
  else if formattingTags.contains name then
    reopenFormatting
    openFormatting tag
  else if name = "nobr" then
    reopenFormatting
    if ← ask fun c => c.hasInScope endsScope ["nobr"] then
      endFormatting "nobr"
      reopenFormatting
    openFormatting tag
  else if enclosures.contains name then
    openInline tag
    addBarrier
    forbidFrameset
  else if name = "table" then startTable tag
  else if voids.contains name then startVoid tag
  else if name = "image" then startVoid { tag with name := "img" }
  else if name = "input" then startInput tag
  else if quietVoids.contains name then placeTag tag
  else if name = "hr" then startRule tag
  else if name = "textarea" then startTextarea tag
  else if name = "xmp" then
    closeParagraph
    reopenFormatting
    forbidFrameset
    openText tag (.raw name)
  else if name = "iframe" then
    forbidFrameset
    openText tag (.raw name)
  else if name = "noembed" then openText tag (.raw name)
  else if name = "select" then startSelect tag
  else if ["optgroup", "option"].contains name then startOption tag
  else if ["rb", "rtc", "rp", "rt"].contains name then startRuby tag
  else if name = "math" then openForeign QName.mathSpace tag
  else if name = "svg" then openForeign QName.svgSpace tag
  else if strayParts.contains name then return
  else if name = "noscript" && (← ask fun c => c.options.scripting) then openText tag (.raw name)
  else openInline tag

/-! ## End tags -/

/-- The end of a form closes only the form itself. -/
def endForm : Build Unit := do
  if ← ask fun c => c.hasOpen "template" then
    if ← ask fun c => c.hasInScope endsScope ["form"] then
      impliedEnds Html.impliedEnds
      popUntilTag ["form"]
  else
    let form ← ask Construction.form
    modify fun c => { c with form := none }
    match form with
    | none => return
    | some form =>
      if ← ask fun c => c.inScope endsScope (· == form) then
        impliedEnds Html.impliedEnds
        close form

/-- The end of a paragraph that is not open makes an empty one. -/
def endParagraph : Build Unit := do
  if !(← ask fun c => c.hasInScope endsButtonScope ["p"]) then openFor (.bare "p")
  closeImplied "p"

/-- Closes the element `name` if it is in scope. -/
def endInScope (ends : QName → Bool) (name : String) : Build Unit := do
  if ← ask fun c => c.hasInScope ends [name] then closeImplied name

/-- Closes the nearest heading, whichever it is. -/
def endHeading : Build Unit := do
  if ← ask fun c => c.hasInScope endsScope headings then
    impliedEnds Html.impliedEnds
    popUntilTag headings

/-- Closes a block with all that is open inside. -/
def endBlock (name : String) : Build Unit := do
  if ← ask fun c => c.hasInScope endsScope [name] then
    impliedEnds Html.impliedEnds
    popUntilTag [name]

/-- Closes an element inside which earlier formatting does not count. -/
def endEnclosure (name : String) : Build Unit := do
  if ← ask fun c => c.hasInScope endsScope [name] then
    impliedEnds Html.impliedEnds
    popUntilTag [name]
    clearFormatting

/-- The end of the body or of the document, if a body is in scope. -/
def endBody (name : String) : Build Outcome := do
  if ← ask fun c => c.hasInScope endsScope ["body"] then
    setMode .afterBody
    return if name = "html" then .again else .done
  return .done

def endInBody (name : String) : Build Unit := do
  if closableBlocks.contains name then endBlock name
  else if name = "form" then endForm
  else if name = "p" then endParagraph
  else if name = "li" then endInScope endsItemScope name
  else if ["dd", "dt"].contains name then endInScope endsScope name
  else if headings.contains name then endHeading
  else if name = "a" || name = "nobr" || formattingTags.contains name then endFormatting name
  else if enclosures.contains name then endEnclosure name
  else if name = "br" then startVoid (.bare name)
  else endOrdinary name

/-! ## The end of the document -/

/-- The document ends; templates that are still open are closed one by one. -/
def endDocument : Build Outcome := do
  if ← ask fun c => c.hasOpen "template" then
    closeTemplate
    return .again
  return .done

/-- The document ends in a mode that also holds inside templates. -/
def endDocumentInBody : Build Outcome := do
  if ← ask fun c => c.templateModes.isEmpty then return .done
  endDocument

/-! ## All tokens -/

def inBodyRule (token : Token) : Build Outcome := do
  match token with
  | .space content =>
    reopenFormatting
    placeText content
    return .done
  | .text content =>
    reopenFormatting
    forbidFrameset
    placeText content
    return .done
  | .comment content =>
    placeComment content
    return .done
  | .startTag tag =>
    if tag.name = "html" then startHtmlAgain tag
    else if headElements.contains tag.name then startHeadElement tag
    else
      startInBody tag
      return .done
  | .endTag name =>
    if name = "template" then endTemplate
    else if ["body", "html"].contains name then endBody name
    else
      endInBody name
      return .done
  | .ending => endDocumentInBody
  | _ => return .done

end Build

end DocTree.Html
