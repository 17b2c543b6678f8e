import DocTree.Edit.Placement
import DocTree.Html.Element
import DocTree.Html.EncodingClaim
import DocTree.Html.DoctypeMode
set_option autoImplicit false

/-!
# State: a document under construction

While a document is read, some of its elements are open: what comes next goes into
the current one, which is the one opened last.  Beside the open elements the state
keeps the formatting elements that later content is to stand in, the mode that
decides which rules a token meets, and how the next characters are to be read.
-/

namespace DocTree.Html

/-- What a reader of HTML may be told. -/
structure Options where
  /-- Scripts will run, so content for the case without them is not looked at. -/
  scripting : Bool
  /-- The type of the document is left out of the tree. -/
  dropDoctype : Bool
  /-- A byte order mark at the beginning is passed over. -/
  discardMark : Bool
  deriving DecidableEq, Repr

/-- Scripts will run, the type is kept, and a byte order mark is passed over. -/
def Options.standard : Options := ⟨true, false, true⟩

/-- Which rules a token meets. -/
inductive Mode where
  | initial
  | beforeHtml
  | beforeHead
  | inHead
  | inHeadNoscript
  | afterHead
  | inBody
  | text
  | inTable
  | inTableText
  | inCaption
  | inColumnGroup
  | inTableBody
  | inRow
  | inCell
  | inTemplate
  | afterBody
  | inFrameset
  | afterFrameset
  | afterAfterBody
  | afterAfterFrameset
  deriving DecidableEq, Repr, Inhabited

/-- One entry of the list of formatting elements. -/
inductive Formatting where
  /-- Formatting before this entry does not count here. -/
  | barrier
  /-- An element and the tag that it came from. -/
  | element (id : NodeId) (tag : Tag)
  deriving DecidableEq, Repr, Inhabited

namespace Formatting

def isBarrier : Formatting → Bool
  | .barrier => true
  | .element _ _ => false

def id? : Formatting → Option NodeId
  | .barrier => none
  | .element id _ => some id

/-- The entry is this element. -/
def isOf (id : NodeId) (f : Formatting) : Bool := f.id? == some id

/-- The entry came from a tag of this name. -/
def isNamed (name : String) : Formatting → Bool
  | .barrier => false
  | .element _ tag => tag.name == name

end Formatting

/-- Why a text cannot be read. -/
inductive ReadFault where
  /-- An element announces the name of an encoding and says no more. -/
  | unfinishedClaim
  deriving DecidableEq, Repr, Inhabited

/-- Why no further token is read for now. -/
inductive Halt where
  /-- What follows is looked at anew. -/
  | pause
  /-- Reading cannot go on. -/
  | broken (fault : ReadFault)
  deriving DecidableEq, Repr, Inhabited

/-- A document under construction. -/
structure Construction where
  options : Options
  tree : Tree
  documentMode : DocumentMode
  mode : Mode
  /-- The mode to go back to after text. -/
  returnMode : Mode
  /-- The modes of the open templates, the innermost first. -/
  templateModes : List Mode
  /-- The open elements, the current one first. -/
  openElements : List NodeId
  /-- The formatting elements, the latest first. -/
  formatting : List Formatting
  head : Option NodeId
  form : Option NodeId
  /-- A frameset may still take the place of the body. -/
  framesetOk : Bool
  /-- Content of a table goes beside the table. -/
  fostering : Bool
  /-- A newline that comes next does not count. -/
  skipNewline : Bool
  /-- Characters met in a table, the latest first. -/
  tableText : List Token
  /-- How the next characters are to be read. -/
  content : Content
  /-- Reading has come to a halt. -/
  halt : Option Halt

namespace Construction

/-- A document of which nothing has been read. -/
def start (options : Options) : Construction where
  options := options
  tree := .new
  documentMode := .standards
  mode := .initial
  returnMode := .initial
  templateModes := []
  openElements := []
  formatting := []
  head := none
  form := none
  framesetOk := true
  fostering := false
  skipNewline := false
  tableText := []
  content := .markup
  halt := none

/-! ## Questions -/

/-- The full name of an element. -/
def nameOf (c : Construction) (id : NodeId) : QName :=
  (c.tree.elementName? id).getD ⟨none, "", ""⟩

/-- The current element. -/
def current (c : Construction) : NodeId := c.openElements.headD .root

def currentName (c : Construction) : QName := c.nameOf c.current

/-- The current element is an HTML element with one of these names. -/
def currentIs (c : Construction) (tags : List String) : Bool := c.currentName.isHtml tags

/-- Some open element is an HTML element with this name. -/
def hasOpen (c : Construction) (tag : String) : Bool :=
  c.openElements.any fun id => (c.nameOf id).isHtml [tag]

/-- The outermost open element. -/
def outermost (c : Construction) : NodeId := c.openElements.getLastD .root

/-- The open element immediately inside the outermost one, if it is a body. -/
def body? (c : Construction) : Option NodeId :=
  match c.openElements.reverse with
  | _ :: id :: _ => if (c.nameOf id).isHtml ["body"] then some id else none
  | _ => none

/-- Some open element satisfies `p` with no element that ends the scope after it. -/
def inScope (c : Construction) (ends : QName → Bool) (p : NodeId → Bool) : Bool :=
  go c.openElements
where
  go : List NodeId → Bool
    | [] => false
    | id :: ids => p id || (!ends (c.nameOf id) && go ids)

/-- An HTML element with one of these names is in scope. -/
def hasInScope (c : Construction) (ends : QName → Bool) (tags : List String) : Bool :=
  c.inScope ends fun id => (c.nameOf id).isHtml tags

/-- The current element belongs to another language than HTML. -/
def inForeign (c : Construction) : Bool :=
  !c.openElements.isEmpty && c.currentName.space != QName.htmlSpace

end Construction

/-! ## Steps -/

/-- A step of construction. -/
abbrev Build := StateM Construction

/-- What a rule did with a token. -/
inductive Outcome where
  /-- The token has been dealt with. -/
  | done
  /-- The token is to meet the rules of the mode that holds now. -/
  | again
  deriving DecidableEq, Repr, Inhabited

namespace Build

/-- An answer about the state. -/
def ask {α : Type} (f : Construction → α) : Build α := fun c => (f c, c)

/-- Changes the tree.  All numbers used in construction belong to nodes. -/
def edit (e : Edit Unit) : Build Unit :=
  modify fun c => { c with tree := e.leave c.tree }

/-- Makes a node without links. -/
def create (payload : Payload) : Build NodeId :=
  modifyGet fun c =>
    let made := c.tree.create payload
    (made.1, { c with tree := made.2 })

def setMode (mode : Mode) : Build Unit := modify fun c => { c with mode := mode }

/-- Hands the token on to the rules of another mode. -/
def handOn (mode : Mode) : Build Outcome := do
  setMode mode
  return .again

/-- Brings reading to a halt. -/
def stop (halt : Halt) : Build Unit := modify fun c => { c with halt := some halt }

def forbidFrameset : Build Unit := modify fun c => { c with framesetOk := false }

/-! ## Opening and closing -/

/-- Makes an element the current one. -/
def push (id : NodeId) : Build Unit :=
  modify fun c => { c with openElements := id :: c.openElements }

/-- Closes the current element. -/
def pop : Build Unit := modify fun c => { c with openElements := c.openElements.tail }

/-- Closes an element wherever it stands among the open ones. -/
def close (id : NodeId) : Build Unit :=
  modify fun c => { c with openElements := c.openElements.erase id }

/-- Closes elements until the current one satisfies `p`. -/
def popUntilCurrent (p : QName → Bool) : Build Unit :=
  modify fun c => { c with openElements := c.openElements.dropWhile fun id => !p (c.nameOf id) }

/-- Closes elements up to and including the first that satisfies `p`. -/
def popUntil (p : QName → Bool) : Build Unit := do
  popUntilCurrent p
  pop

/-- Closes elements up to and including an HTML element with one of these names. -/
def popUntilTag (tags : List String) : Build Unit := popUntil fun n => n.isHtml tags

/-- Closes the current element as long as it is one of these that need no end tag. -/
def impliedEnds (tags : List String) : Build Unit := popUntilCurrent fun n => !n.isHtml tags

/-- Closes current elements that need no end tag, except those named `tag`. -/
def impliedEndsExcept (tag : String) : Build Unit :=
  impliedEnds (Html.impliedEnds.filter fun t => t != tag)

/-- Closes an element named `tag` with the elements inside it that need no end tag. -/
def closeImplied (tag : String) : Build Unit := do
  impliedEndsExcept tag
  popUntilTag [tag]

/-- Closes a paragraph that is open around here. -/
def closeParagraph : Build Unit := do
  if ← ask fun c => c.hasInScope endsButtonScope ["p"] then closeImplied "p"

/-! ## Placing -/

/-- Where content for `target` goes.  While stray content of a table is fostered,
content for a part of a table goes beside the table, unless a template is nearer. -/
def spotFor (c : Construction) (target : NodeId) : Spot :=
  if c.fostering && (c.nameOf target).isHtml tableParts then search c.openElements
  else .last target
where
  search : List NodeId → Spot
    | [] => .last c.outermost
    | id :: outer =>
      if (c.nameOf id).isHtml ["template"] then .last id
      else if (c.nameOf id).isHtml ["table"] then .beside id (outer.headD .root)
      else search outer

/-- Puts a piece where content for `target` goes. -/
def placeFor (target : NodeId) (piece : Piece) : Build Unit := do
  let spot ← ask fun c => spotFor c target
  edit (Edit.place piece spot)

/-- Puts a piece where content for the current element goes. -/
def placeHere (piece : Piece) : Build Unit := do
  placeFor (← ask Construction.current) piece

def placeText (content : String) : Build Unit := placeHere (.text content)

def placeComment (content : String) : Build Unit := do
  placeHere (.node (← create (.comment content)))

/-- Puts a comment behind all that is in `parent`. -/
def placeCommentIn (parent : NodeId) (content : String) : Build Unit := do
  let id ← create (.comment content)
  edit (Edit.append parent id)

/-- Makes an element and puts it in its place without opening it. -/
def placeElement (name : QName) (attrs : List Attr) : Build NodeId := do
  let id ← create (.element name attrs)
  placeHere (.node id)
  return id

/-- Makes an element, puts it in its place and opens it. -/
def openElement (name : QName) (attrs : List Attr) : Build NodeId := do
  let id ← placeElement name attrs
  push id
  return id

/-- Opens the HTML element of a tag. -/
def openTag (tag : Tag) : Build NodeId := openElement (.html tag.name) tag.attrs

/-- Opens the HTML element of a tag; its number is not needed. -/
def openFor (tag : Tag) : Build Unit := do
  let _ ← openTag tag

/-- Puts the HTML element of a tag in its place without opening it. -/
def placeTag (tag : Tag) : Build Unit := do
  let _ ← placeElement (.html tag.name) tag.attrs

/-- Reads what comes next as text, and goes back to the present mode afterwards. -/
def readText (content : Content) : Build Unit :=
  modify fun c => { c with returnMode := c.mode, mode := .text, content := content }

/-- Opens an element whose content is read as text. -/
def openText (tag : Tag) (content : Content) : Build Unit := do
  openFor tag
  readText content

/-! ## Choosing the mode again -/

/-- The mode that the open elements ask for. -/
def modeFor (c : Construction) : Mode := go c.openElements
where
  go : List NodeId → Mode
    | [] => .inBody
    | id :: outer =>
      let name := c.nameOf id
      if name.isHtml cells && !outer.isEmpty then .inCell
      else if name.isHtml ["tr"] then .inRow
      else if name.isHtml rowGroups then .inTableBody
      else if name.isHtml ["caption"] then .inCaption
      else if name.isHtml ["colgroup"] then .inColumnGroup
      else if name.isHtml ["table"] then .inTable
      else if name.isHtml ["template"] then c.templateModes.headD .inBody
      else if name.isHtml ["head"] && !outer.isEmpty then .inHead
      else if name.isHtml ["body"] then .inBody
      else if name.isHtml ["frameset"] then .inFrameset
      else if name.isHtml ["html"] then (if c.head.isNone then .beforeHead else .afterHead)
      else go outer

/-- Chooses the mode that the open elements ask for. -/
def resetMode : Build Unit := modify fun c => { c with mode := modeFor c }

end Build

end DocTree.Html
