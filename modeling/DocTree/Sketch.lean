import DocTree.Edit
set_option autoImplicit false

/-!
# Sketch: trees drawn stroke by stroke

A sketch lists the nodes of a subtree in document order and says where elements
end, so that small trees can be written down in one line.
-/

namespace DocTree

/-- One stroke of a sketch. -/
inductive Stroke where
  /-- An HTML element begins; what follows is inside it. -/
  | opening (tag : String)
  /-- The innermost element ends; outside all of them nothing happens. -/
  | closing
  | text (content : String)
  | comment (content : String)
  /-- A document type without identifiers. -/
  | doctype (name : String)
  deriving DecidableEq, Repr

namespace Edit

/-- Makes a node and appends it. -/
def attach (parent : NodeId) (payload : Payload) : Edit NodeId := do
  let id ← create payload
  append parent id
  pure id

/-- Draws strokes below `parent`, inside the elements at `inside`, the innermost
first. -/
def drawInside (parent : NodeId) (inside : List NodeId) : List Stroke → Edit Unit
  | [] => pure ()
  | stroke :: strokes => do
    let here := inside.headD parent
    match stroke with
    | .opening tag =>
      let id ← attach here (.element (.html tag) [])
      drawInside parent (id :: inside) strokes
    | .closing => drawInside parent inside.tail strokes
    | .text content =>
      let _ ← attach here (.text content)
      drawInside parent inside strokes
    | .comment content =>
      let _ ← attach here (.comment content)
      drawInside parent inside strokes
    | .doctype name =>
      let _ ← attach here (.doctype name "" "")
      drawInside parent inside strokes

/-- Draws strokes below `parent`. -/
def draw (parent : NodeId) (strokes : List Stroke) : Edit Unit := drawInside parent [] strokes

/-- Nests elements in each other, the outermost below `parent`, each with the same
text before the next one if there is one. -/
def nest (content : Option String) (parent : NodeId) : (tags : List String) → Edit Unit
  | [] => pure ()
  | tag :: tags => do
    let id ← attach parent (.element (.html tag) [])
    match content with
    | some content => do let _ ← attach id (.text content)
    | none => pure ()
    nest content id tags

end Edit

end DocTree
