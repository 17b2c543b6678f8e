import DocTree.Tree.Order
import DocTree.Text.Quoted
set_option autoImplicit false

/-!
# Outline: a subtree as lines of text

An outline shows one node a line, in document order, indented by its depth.  It is
meant for reading and for comparing trees: it shows what a node is called or says,
and leaves out numbers, attributes, namespaces and the identifiers of document
types.
-/

namespace DocTree

/-- What an outline says of a node. -/
def Payload.label : Payload → String
  | .document => "#document"
  | .element name _ => name.name
  | .text content => "#text " ++ Text.quote content
  | .comment content => "#comment " ++ Text.quote content
  | .doctype name _ _ => "#doctype " ++ name

/-- The bars before a node at this depth. -/
def indent (depth : Nat) : String := String.join (List.replicate depth "│ ")

/-- The line of a node at this depth. -/
def outlineLine (depth : Nat) (payload : Payload) : String :=
  indent depth ++ "├─" ++ payload.label ++ "\n"

namespace Tree

/-- The nodes of a subtree in document order, each with its depth; `levels` bounds
how far down the reading goes.  Numbers outside the row are left out. -/
def entries (t : Tree) : (levels depth : Nat) → (id : NodeId) → List (Nat × Payload)
  | 0, _, _ => []
  | levels + 1, depth, id =>
    match t.node? id with
    | none => []
    | some n =>
      (depth, n.payload) :: (t.children id).flatMap (t.entries levels (depth + 1))

/-- The outline of the subtree at `id`.  A path without repetition has at most
`size` nodes, so a deeper reading would not end. -/
def outline (t : Tree) (id : NodeId) : String :=
  String.join ((t.entries t.size 0 id).map fun e => outlineLine e.1 e.2)

end Tree

end DocTree
