import DocTree.Html.Construction.Body
set_option autoImplicit false

/-!
# Table: the rules for the parts of a table

A table admits only captions, columns, rows and cells in their places.  Missing
parts are made; what cannot stand in a table goes before it.
-/

namespace DocTree.Html

namespace Build

/-! ## Stray content -/

/-- Lets a token meet the rules of a body, its content going beside the table. -/
def foster (token : Token) : Build Outcome := do
  modify fun c => { c with fostering := true }
  let outcome ← inBodyRule token
  modify fun c => { c with fostering := false }
  return outcome

/-- Characters in a table are kept until it is known whether they are all white space. -/
def tableCharacters (token : Token) : Build Outcome := do
  if ← ask fun c => c.currentIs tableParts then
    modify fun c => { c with returnMode := c.mode }
    handOn .inTableText
  else foster token

/-- The characters of a token. -/
def charactersOf : Token → String
  | .space content => content
  | .text content => content
  | _ => ""

def isText : Token → Bool
  | .text _ => true
  | _ => false

def fosterAll : List Token → Build Unit
  | [] => return
  | token :: tokens => do
    let _ ← foster token
    fosterAll tokens

def placeAll : List Token → Build Unit
  | [] => return
  | token :: tokens => do
    placeText (charactersOf token)
    placeAll tokens

/-- Places the characters kept so far: in the table if they are all white space. -/
def placeTableText : Build Unit := do
  let kept ← ask fun c => c.tableText.reverse
  modify fun c => { c with tableText := [] }
  if kept.any isText then fosterAll kept else placeAll kept

def inTableTextRule (token : Token) : Build Outcome := do
  match token with
  | .nul => return .done
  | .space _ | .text _ =>
    modify fun c => { c with tableText := token :: c.tableText }
    return .done
  | _ =>
    placeTableText
    handOn (← ask Construction.returnMode)

/-! ## The table itself -/

/-- Closes elements until the table is the current one. -/
def clearToTable : Build Unit := popUntilCurrent endsTableScope

def clearToTableBody : Build Unit := popUntilCurrent endsTableBodyScope

def clearToRow : Build Unit := popUntilCurrent endsRowScope

def hasInTable (c : Construction) (tags : List String) : Bool := c.hasInScope endsTableScope tags

/-- Opens an HTML element in the table and goes to its mode. -/
def openPart (tag : Tag) (mode : Mode) : Build Unit := do
  openFor tag
  setMode mode

def startInTable (tag : Tag) (token : Token) : Build Outcome := do
  let name := tag.name
  if name = "caption" then
    clearToTable
    addBarrier
    openPart tag .inCaption
    return .done
  else if name = "colgroup" then
    clearToTable
    openPart tag .inColumnGroup
    return .done
  else if name = "col" then
    clearToTable
    openFor (.bare "colgroup")
    handOn .inColumnGroup
  else if rowGroups.contains name then
    clearToTable
    openPart tag .inTableBody
    return .done
  else if ["td", "th", "tr"].contains name then
    clearToTable
    openFor (.bare "tbody")
    handOn .inTableBody
  else if name = "table" then
    if ← ask fun c => hasInTable c ["table"] then
      popUntilTag ["table"]
      resetMode
      return .again
    return .done
  else if ["style", "script", "template"].contains name then startHeadElement tag
  else if name = "input" && isHidden tag then
    placeTag tag
    return .done
  else if name = "form" then
    if ← ask fun c => !c.hasOpen "template" && c.form.isNone then
      let id ← placeElement (.html name) tag.attrs
      modify fun c => { c with form := some id }
    return .done
  else foster token

/-- End tags of parts that are not open in a table itself. -/
def notInTable : List String :=
  ["body", "caption", "col", "colgroup", "html", "tbody", "td", "tfoot", "th", "thead", "tr"]

def inTableRule (token : Token) : Build Outcome := do
  match token with
  | .nul | .space _ | .text _ => tableCharacters token
  | .comment content =>
    placeComment content
    return .done
  | .startTag tag => startInTable tag token
  | .endTag name =>
    if name = "table" then
      if ← ask fun c => hasInTable c ["table"] then
        popUntilTag ["table"]
        resetMode
      return .done
    else if notInTable.contains name then return .done
    else if name = "template" then endTemplate
    else foster token
  | .ending => endDocumentInBody
  | _ => foster token

/-! ## Captions and columns -/

/-- Closes the caption if it is open. -/
def closeCaption : Build Bool := do
  if ← ask fun c => hasInTable c ["caption"] then
    impliedEnds Html.impliedEnds
    popUntilTag ["caption"]
    clearFormatting
    setMode .inTable
    return true
  return false

def inCaptionRule (token : Token) : Build Outcome := do
  match token with
  | .startTag tag =>
    if ["caption", "col", "colgroup", "tbody", "td", "tfoot", "th", "thead", "tr"].contains tag.name
    then return if ← closeCaption then .again else .done
    else inBodyRule token
  | .endTag name =>
    if name = "caption" then
      let _ ← closeCaption
      return .done
    else if name = "table" then return if ← closeCaption then .again else .done
    else if notInTable.contains name then return .done
    else inBodyRule token
  | _ => inBodyRule token

def inColumnGroupRule (token : Token) : Build Outcome := do
  let content : Build Outcome := do
    if ← ask fun c => c.currentIs ["colgroup"] then
      pop
      handOn .inTable
    else return .done
  match token with
  | .space content =>
    placeText content
    return .done
  | .comment content =>
    placeComment content
    return .done
  | .startTag tag =>
    if tag.name = "html" then startHtmlAgain tag
    else if tag.name = "col" then
      placeTag tag
      return .done
    else if tag.name = "template" then startTemplate tag
    else content
  | .endTag name =>
    if name = "colgroup" then
      if ← ask fun c => c.currentIs ["colgroup"] then
        pop
        setMode .inTable
      return .done
    else if name = "col" then return .done
    else if name = "template" then endTemplate
    else content
  | .ending => endDocumentInBody
  | _ => content

/-! ## Rows and cells -/

/-- Closes the current group of rows and hands the token to the table. -/
def leaveTableBody : Build Outcome := do
  clearToTableBody
  pop
  handOn .inTable

def inTableBodyRule (token : Token) : Build Outcome := do
  match token with
  | .startTag tag =>
    if tag.name = "tr" then
      clearToTableBody
      openPart tag .inRow
      return .done
    else if cells.contains tag.name then
      clearToTableBody
      openFor (.bare "tr")
      handOn .inRow
    else if ["caption", "col", "colgroup", "tbody", "tfoot", "thead"].contains tag.name then
      if ← ask fun c => hasInTable c ["table", "tbody", "tfoot"] then leaveTableBody
      else return .done
    else inTableRule token
  | .endTag name =>
    if rowGroups.contains name then
      if ← ask fun c => hasInTable c [name] then
        clearToTableBody
        pop
        setMode .inTable
      return .done
    else if name = "table" then
      if ← ask fun c => hasInTable c ["table", "tbody", "tfoot"] then leaveTableBody
      else return .done
    else if ["body", "caption", "col", "colgroup", "html", "td", "th", "tr"].contains name then
      return .done
    else inTableRule token
  | _ => inTableRule token

/-- Closes the current row if one is open and hands the token to the group of rows. -/
def leaveRow : Build Outcome := do
  if ← ask fun c => hasInTable c ["tr"] then
    clearToRow
    pop
    handOn .inTableBody
  else return .done

def inRowRule (token : Token) : Build Outcome := do
  match token with
  | .startTag tag =>
    if cells.contains tag.name then
      clearToRow
      openPart tag .inCell
      addBarrier
      return .done
    else if ["caption", "col", "colgroup", "tbody", "tfoot", "thead", "tr"].contains tag.name then
      leaveRow
    else inTableRule token
  | .endTag name =>
    if name = "tr" then
      let outcome ← leaveRow
      return if outcome = .again then .done else outcome
    else if name = "table" then leaveRow
    else if rowGroups.contains name then
      if ← ask fun c => hasInTable c [name] then leaveRow else return .done
    else if ["body", "caption", "col", "colgroup", "html", "td", "th"].contains name then
      return .done
    else inTableRule token
  | _ => inTableRule token

/-- Closes the current cell. -/
def closeCell : Build Unit := do
  impliedEnds Html.impliedEnds
  popUntilTag cells
  clearFormatting

def inCellRule (token : Token) : Build Outcome := do
  match token with
  | .startTag tag =>
    if ["caption", "col", "colgroup", "tbody", "td", "tfoot", "th", "thead", "tr"].contains tag.name
    then
      if ← ask fun c => hasInTable c cells then
        closeCell
        handOn .inRow
      else return .done
    else inBodyRule token
  | .endTag name =>
    if cells.contains name then
      if ← ask fun c => hasInTable c [name] then
        impliedEnds Html.impliedEnds
        popUntilTag [name]
        clearFormatting
        setMode .inRow
      return .done
    else if ["body", "caption", "col", "colgroup", "html"].contains name then return .done
    else if ["table", "tbody", "tfoot", "thead", "tr"].contains name then
      if ← ask fun c => hasInTable c [name] then
        closeCell
        handOn .inRow
      else return .done
    else inBodyRule token
  | _ => inBodyRule token

/-! ## Templates -/

/-- Gives the innermost template another mode and hands the token to its rules. -/
def switchTemplate (mode : Mode) : Build Outcome := do
  modify fun c => { c with templateModes := mode :: c.templateModes.tail }
  handOn mode

def inTemplateRule (token : Token) : Build Outcome := do
  match token with
  | .space _ | .text _ | .comment _ => inBodyRule token
  | .startTag tag =>
    if headElements.contains tag.name then startHeadElement tag
    else if ["caption", "colgroup", "tbody", "tfoot", "thead"].contains tag.name then
      switchTemplate .inTable
    else if tag.name = "col" then switchTemplate .inColumnGroup
    else if tag.name = "tr" then switchTemplate .inTableBody
    else if cells.contains tag.name then switchTemplate .inRow
    else switchTemplate .inBody
  | .endTag name => if name = "template" then endTemplate else return .done
  | .ending => endDocument
  | _ => return .done

end Build

end DocTree.Html
