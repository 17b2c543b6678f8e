import DocTree.Edit
set_option autoImplicit false

/-!
# Placement: putting nodes and characters where a reader of markup wants them

A reader of markup asks for three kinds of place: at the end of a node, before a
sibling, and beside an element that may or may not have been taken out of the
tree in the meantime.  What it places is a node or a run of characters, and
characters join a text that already stands just before their place, so that no
two texts are neighbours because the reader stopped between them.
-/

namespace DocTree

/-- What is placed: a node, or characters. -/
inductive Piece where
  | node (id : NodeId)
  | text (content : String)
  deriving DecidableEq, Repr

/-- Where it is placed. -/
inductive Spot where
  /-- After all children of `parent`. -/
  | last (parent : NodeId)
  /-- Immediately before `sibling`. -/
  | before (sibling : NodeId)
  /-- Before `element` if it has a parent, else after all children of `fallback`. -/
  | beside (element fallback : NodeId)
  deriving DecidableEq, Repr

namespace Edit

/-- Puts a piece after all children of `parent`. -/
def placeLast (parent : NodeId) : Piece → Edit Unit
  | .node id => append parent id
  | .text content => appendText parent content

/-- The text node that stands immediately before `sibling`, with its characters. -/
def textBefore? (t : Tree) (sibling : NodeId) : Option (NodeId × String) :=
  (t.prevSibling? sibling).bind fun prev => (t.text? prev).map fun content => (prev, content)

/-- Puts a piece immediately before `sibling`. -/
def placeBefore (sibling : NodeId) : Piece → Edit Unit
  | .node id => insertBefore sibling id
  | .text content => do
    match textBefore? (← get) sibling with
    | some (prev, old) => extendText prev old content
    | none => insertBefore sibling (← createText content)

/-- Puts a piece at its spot. -/
def place (piece : Piece) : Spot → Edit Unit
  | .last parent => placeLast parent piece
  | .before sibling => placeBefore sibling piece
  | .beside element fallback => do
    match (← get).parent? element with
    | some _ => placeBefore element piece
    | none => placeLast fallback piece

/-- Appends nodes one after another. -/
def appendAll (parent : NodeId) : List NodeId → Edit Unit
  | [] => pure ()
  | id :: ids => do
    append parent id
    appendAll parent ids

/-- Moves all children of `id` behind those of `parent`, in their order. -/
def moveChildren (id parent : NodeId) : Edit Unit := do
  appendAll parent ((← get).children id)

/-- Makes a document type the last child of the document. -/
def appendDoctype (name publicId systemId : String) : Edit Unit := do
  append .root (← createDoctype name publicId systemId)

end Edit

/-! ## Attributes -/

namespace Attr

/-- `attrs` with those of `more` behind it, in their order, whose full name does
not occur before them. -/
def fill (attrs : List Attr) : List Attr → List Attr
  | [] => attrs
  | a :: more =>
    if attrs.any fun b => b.name == a.name then fill attrs more else fill (attrs ++ [a]) more

@[simp] theorem fill_nil (attrs : List Attr) : fill attrs [] = attrs := rfl

end Attr

/-- Gives an element the attributes it lacks; every other payload stays. -/
def Payload.fillAttrs (more : List Attr) : Payload → Payload
  | .element name attrs => .element name (Attr.fill attrs more)
  | payload => payload

/-- Gives the element `id` the attributes it lacks. -/
def Tree.fillAttrs (t : Tree) (id : NodeId) (more : List Attr) : Tree :=
  t.modify id fun n => { n with payload := n.payload.fillAttrs more }

end DocTree
