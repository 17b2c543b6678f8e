import DocTree.Html.Construction.State
set_option autoImplicit false

/-!
# Head: the rules up to the body

A document has an element `html` with a head and a body whether or not their tags
are written.  A token that cannot stand before or in the head ends it.
-/

namespace DocTree.Html

namespace Build

/-! ## Rules that other modes share -/

/-- A further tag of the outermost element adds the attributes that it lacks, unless a
template is open. -/
def startHtmlAgain (tag : Tag) : Build Outcome := do
  modify fun c =>
    if c.hasOpen "template" then c
    else { c with tree := c.tree.fillAttrs c.outermost tag.attrs }
  return .done

/-- A template begins. -/
def startTemplate (tag : Tag) : Build Outcome := do
  modify fun c =>
    { c with
      formatting := .barrier :: c.formatting
      framesetOk := false
      mode := .inTemplate
      templateModes := .inTemplate :: c.templateModes }
  openFor tag
  return .done

/-- Closes the innermost template and all that is open in it. -/
def closeTemplate : Build Unit := do
  popUntilTag ["template"]
  modify fun c =>
    { c with
      formatting := (c.formatting.dropWhile fun f => !f.isBarrier).tail
      templateModes := c.templateModes.tail }
  resetMode

/-- A template ends. -/
def endTemplate : Build Outcome := do
  if ← ask fun c => c.hasOpen "template" then
    impliedEnds thoroughImpliedEnds
    closeTemplate
  return .done

/-- An element without content is placed.  If it names an encoding, what follows is
looked at anew. -/
def placeHeadVoid (tag : Tag) : Build Unit := do
  placeTag tag
  match EncodingClaim.ofTag tag with
  | .silent => return
  | .named _ => stop .pause
  | .unfinished => stop (.broken .unfinishedClaim)

/-- An element of the head begins. -/
def startHeadElement (tag : Tag) : Build Outcome := do
  if headVoids.contains tag.name then
    placeHeadVoid tag
    return .done
  else if tag.name = "title" then
    openText tag (.escapable tag.name)
    return .done
  else if tag.name = "script" then
    openText tag .script
    return .done
  else if tag.name = "template" then
    startTemplate tag
  else
    openText tag (.raw tag.name)
    return .done

/-- Makes the outermost element. -/
def makeRoot (attrs : List Attr) : Build Unit := do
  let id ← create (.element (.html "html") attrs)
  push id
  edit (Edit.append .root id)

/-- End tags that have the same effect as content. -/
def actsAsContent : List String := ["head", "body", "html", "br"]

/-! ## Before the outermost element -/

/-- The document type comes first or not at all. -/
def doctypeRule (d : Doctype) : Build Outcome := do
  let c ← get
  if c.mode = .initial then
    if !c.options.dropDoctype then
      edit (Edit.appendDoctype (d.name.getD "") (d.publicId.getD "") (d.systemId.getD ""))
    modify fun c => { c with documentMode := d.mode, mode := .beforeHtml }
  return .done

def initialRule (token : Token) : Build Outcome := do
  match token with
  | .space _ => return .done
  | .comment content =>
    placeCommentIn .root content
    return .done
  | _ =>
    modify fun c => { c with documentMode := .legacy }
    handOn .beforeHtml

def beforeHtmlRule (token : Token) : Build Outcome := do
  let content : Build Outcome := do
    makeRoot []
    handOn .beforeHead
  match token with
  | .space _ => return .done
  | .comment content =>
    placeCommentIn .root content
    return .done
  | .startTag tag =>
    if tag.name = "html" then
      makeRoot tag.attrs
      setMode .beforeHead
      return .done
    else content
  | .endTag name => if actsAsContent.contains name then content else return .done
  | _ => content

/-! ## The head -/

/-- Opens the head and remembers it. -/
def openHead (tag : Tag) : Build Unit := do
  let id ← openTag tag
  modify fun c => { c with head := some id }

def beforeHeadRule (token : Token) : Build Outcome := do
  let content : Build Outcome := do
    openHead (.bare "head")
    handOn .inHead
  match token with
  | .space _ => return .done
  | .comment content =>
    placeComment content
    return .done
  | .startTag tag =>
    if tag.name = "html" then startHtmlAgain tag
    else if tag.name = "head" then
      openHead tag
      setMode .inHead
      return .done
    else content
  | .endTag name => if actsAsContent.contains name then content else return .done
  | _ => content

def inHeadRule (token : Token) : Build Outcome := do
  let content : Build Outcome := do
    pop
    handOn .afterHead
  match token with
  | .space content =>
    placeText content
    return .done
  | .comment content =>
    placeComment content
    return .done
  | .startTag tag =>
    if tag.name = "html" then startHtmlAgain tag
    else if tag.name = "noscript" then
      if ← ask fun c => c.options.scripting then openText tag (.raw tag.name)
      else
        openFor tag
        setMode .inHeadNoscript
      return .done
    else if headElements.contains tag.name then startHeadElement tag
    else if tag.name = "head" then return .done
    else content
  | .endTag name =>
    if name = "head" then
      pop
      setMode .afterHead
      return .done
    else if name = "template" then endTemplate
    else if actsAsContent.contains name then content
    else return .done
  | _ => content

def inHeadNoscriptRule (token : Token) : Build Outcome := do
  let content : Build Outcome := do
    pop
    handOn .inHead
  match token with
  | .space _ => inHeadRule token
  | .comment _ => inHeadRule token
  | .startTag tag =>
    if tag.name = "html" then startHtmlAgain tag
    else if ["basefont", "bgsound", "link", "meta", "noframes", "style"].contains tag.name then
      startHeadElement tag
    else if ["head", "noscript"].contains tag.name then return .done
    else content
  | .endTag name =>
    if name = "noscript" then
      pop
      setMode .inHead
      return .done
    else if name = "br" then content
    else return .done
  | _ => content

def afterHeadRule (token : Token) : Build Outcome := do
  let content : Build Outcome := do
    openFor (.bare "body")
    handOn .inBody
  match token with
  | .space content =>
    placeText content
    return .done
  | .comment content =>
    placeComment content
    return .done
  | .startTag tag =>
    if tag.name = "html" then startHtmlAgain tag
    else if tag.name = "body" then
      openFor tag
      forbidFrameset
      setMode .inBody
      return .done
    else if tag.name = "frameset" then
      openFor tag
      setMode .inFrameset
      return .done
    else if headElements.contains tag.name then
      let head ← ask fun c => c.head.getD .root
      push head
      let outcome ← startHeadElement tag
      close head
      return outcome
    else if tag.name = "head" then return .done
    else content
  | .endTag name =>
    if name = "template" then endTemplate
    else if ["body", "html", "br"].contains name then content
    else return .done
  | _ => content

end Build

end DocTree.Html
