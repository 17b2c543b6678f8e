import DocTree.Html.Construction.Foreign
import DocTree.Html.Construction.Table
set_option autoImplicit false

/-!
# Rules: which rules a token meets

A token meets the rules of the present mode, or those for other languages than
HTML.  A rule may hand it on to the rules of another mode; as every such step
closes elements or goes on to a later part of the document, this comes to an end.
-/

namespace DocTree.Html

namespace Build

/-! ## Text -/

/-- Content that is read as text ends with its end tag or with the document.  What
follows a script is looked at anew, since the script may have changed it. -/
def textRule (token : Token) : Build Outcome := do
  match token with
  | .space content | .text content =>
    placeText content
    return .done
  | .ending =>
    pop
    handOn (← ask Construction.returnMode)
  | .endTag name =>
    pop
    modify fun c => { c with mode := c.returnMode }
    if name = "script" then stop .pause
    return .done
  | _ => return .done

/-! ## Behind the body -/

def afterBodyRule (token : Token) : Build Outcome := do
  match token with
  | .space _ => inBodyRule token
  | .comment content =>
    placeCommentIn (← ask Construction.outermost) content
    return .done
  | .ending => return .done
  | .startTag tag => if tag.name = "html" then startHtmlAgain tag else handOn .inBody
  | .endTag name =>
    if name = "html" then
      setMode .afterAfterBody
      return .done
    else handOn .inBody
  | _ => handOn .inBody

def afterAfterBodyRule (token : Token) : Build Outcome := do
  match token with
  | .space _ => inBodyRule token
  | .comment content =>
    placeCommentIn .root content
    return .done
  | .ending => return .done
  | .startTag tag => if tag.name = "html" then startHtmlAgain tag else handOn .inBody
  | _ => handOn .inBody

/-! ## Framesets -/

def inFramesetRule (token : Token) : Build Outcome := do
  match token with
  | .space content =>
    placeText content
    return .done
  | .comment content =>
    placeComment content
    return .done
  | .startTag tag =>
    if tag.name = "html" then startHtmlAgain tag
    else if tag.name = "noframes" then startHeadElement tag
    else
      if tag.name = "frameset" then openFor tag
      if tag.name = "frame" then placeTag tag
      return .done
  | .endTag name =>
    let c ← get
    if name = "frameset" && c.openElements.length != 1 then
      pop
      if !(← ask fun c => c.currentIs ["frameset"]) then setMode .afterFrameset
    return .done
  | _ => return .done

def afterFramesetRule (token : Token) : Build Outcome := do
  match token with
  | .space content =>
    placeText content
    return .done
  | .comment content =>
    placeComment content
    return .done
  | .startTag tag =>
    if tag.name = "html" then startHtmlAgain tag
    else if tag.name = "noframes" then startHeadElement tag
    else return .done
  | .endTag name =>
    if name = "html" then setMode .afterAfterFrameset
    return .done
  | _ => return .done

def afterAfterFramesetRule (token : Token) : Build Outcome := do
  match token with
  | .space _ => inBodyRule token
  | .comment content =>
    placeCommentIn .root content
    return .done
  | .startTag tag =>
    if tag.name = "html" then startHtmlAgain tag
    else if tag.name = "noframes" then startHeadElement tag
    else return .done
  | _ => return .done

/-! ## All modes -/

/-- The rules of a mode. -/
def modeRule : Mode → Token → Build Outcome
  | .initial => initialRule
  | .beforeHtml => beforeHtmlRule
  | .beforeHead => beforeHeadRule
  | .inHead => inHeadRule
  | .inHeadNoscript => inHeadNoscriptRule
  | .afterHead => afterHeadRule
  | .inBody => inBodyRule
  | .text => textRule
  | .inTable => inTableRule
  | .inTableText => inTableTextRule
  | .inCaption => inCaptionRule
  | .inColumnGroup => inColumnGroupRule
  | .inTableBody => inTableBodyRule
  | .inRow => inRowRule
  | .inCell => inCellRule
  | .inTemplate => inTemplateRule
  | .afterBody => afterBodyRule
  | .inFrameset => inFramesetRule
  | .afterFrameset => afterFramesetRule
  | .afterAfterBody => afterAfterBodyRule
  | .afterAfterFrameset => afterAfterFramesetRule

/-- The rules of the mode that holds now. -/
def presentRule (token : Token) : Build Outcome := do
  modeRule (← ask Construction.mode) token

/-- The rules inside elements of other languages. -/
def foreignRule (token : Token) : Build Outcome := do
  match token with
  | .nul =>
    placeText (String.singleton replacement)
    return .done
  | .space content =>
    placeText content
    return .done
  | .text content =>
    forbidFrameset
    placeText content
    return .done
  | .comment content =>
    placeComment content
    return .done
  | .startTag tag =>
    if leadsOut.contains tag.name || changesFont tag then
      leaveForeign
      presentRule token
    else startForeign tag
  | .endTag name =>
    if name = "br" || name = "p" then
      leaveForeign
      presentRule token
    else
      match ← ask fun c => endForeign? c name true c.openElements with
      | none => presentRule token
      | some none => return .done
      | some (some outer) =>
        modify fun c => { c with openElements := outer }
        return .done
  | _ => return .done

/-- Lets a token meet rules until one has dealt with it, at most `steps` times. -/
def meet (token : Token) : (steps : Nat) → Build Unit
  | 0 => return
  | steps + 1 => do
    let outcome ← if ← ask fun c => c.isForeignToken token then foreignRule token
      else presentRule token
    if outcome = .again then meet token steps

/-- More steps than any token takes: each closes an element, or goes on to one of the
parts of a document, of which there are fewer than modes. -/
def stepsFor (c : Construction) : Nat := 2 * c.openElements.length + 32

/-- A newline at the beginning of white space is passed over. -/
def skipFirstNewline (content : String) : Option Token :=
  match content.toList with
  | '\n' :: rest => if rest.isEmpty then none else some (.space (String.ofList rest))
  | _ => some (.space content)

/-- What is left of a token when a newline that comes next does not count. -/
def withoutNewline : Token → Option Token
  | .space content => skipFirstNewline content
  | token => some token

/-- Takes in one token. -/
def take (token : Token) : Build Unit := do
  let skip ← ask Construction.skipNewline
  modify fun c => { c with skipNewline := false }
  match if skip then withoutNewline token else some token with
  | none => return
  | some .mistake => return
  | some (.doctype d) =>
    let _ ← doctypeRule d
  | some token =>
    match token with
    | .startTag _ | .endTag _ => modify fun c => { c with content := .markup }
    | _ => pure ()
    meet token (← ask stepsFor)

/-- Takes in tokens one after another. -/
def takeAll : List Token → Build Unit
  | [] => return
  | token :: tokens => do
    take token
    takeAll tokens

end Build

end DocTree.Html
