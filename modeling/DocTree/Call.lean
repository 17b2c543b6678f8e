import DocTree.Edit.Placement
import DocTree.Lists
set_option autoImplicit false

/-!
# Call: what a user of a tree can ask for

A call names one change and its arguments.  It is made on a tree and a log; whether the
change comes to its end or stops with a fault, the next call finds what it left behind.
-/

namespace DocTree

/-- One change that can be asked for. -/
inductive Call where
  | createElement (name : QName) (attrs : List Attr)
  | createHtml (tag : String)
  | createText (content : String)
  | createComment (content : String)
  | createDoctype (name publicId systemId : String)
  | append (parent child : NodeId)
  | insertBefore (sibling id : NodeId)
  | detach (id : NodeId)
  | appendText (parent : NodeId) (content : String)
  | place (piece : Piece) (spot : Spot)
  | appendDoctype (name publicId systemId : String)
  | fillAttrs (id : NodeId) (more : List Attr)
  | moveChildren (id parent : NodeId)
  | regroupLists
  deriving Repr

/-- The numbers named by a piece. -/
def Piece.ids : Piece → List NodeId
  | .node id => [id]
  | .text _ => []

/-- The numbers named by a spot. -/
def Spot.ids : Spot → List NodeId
  | .last parent => [parent]
  | .before sibling => [sibling]
  | .beside element fallback => [element, fallback]

namespace Call

/-- The change that is asked for.  The number of a node that is made is not answered. -/
def pass : Call → Pass Log Unit
  | createElement name attrs => do let _ ← Pass.edit (Edit.createElement name attrs)
  | createHtml tag => do let _ ← Pass.edit (Edit.createHtml tag)
  | createText content => do let _ ← Pass.edit (Edit.createText content)
  | createComment content => do let _ ← Pass.edit (Edit.createComment content)
  | createDoctype name publicId systemId => do
    let _ ← Pass.edit (Edit.createDoctype name publicId systemId)
  | append parent child => Pass.edit (Edit.append parent child)
  | insertBefore sibling id => Pass.edit (Edit.insertBefore sibling id)
  | detach id => Pass.edit (Edit.detach id)
  | appendText parent content => Pass.edit (Edit.appendText parent content)
  | place piece spot => Pass.edit (Edit.place piece spot)
  | appendDoctype name publicId systemId =>
    Pass.edit (Edit.appendDoctype name publicId systemId)
  | fillAttrs id more => fun (t, log) => .ok () (t.fillAttrs id more, log)
  | moveChildren id parent => Pass.edit (Edit.moveChildren id parent)
  | regroupLists => DocTree.regroupLists

/-- The numbers that a call names. -/
def ids : Call → List NodeId
  | append parent child => [parent, child]
  | insertBefore sibling id => [sibling, id]
  | detach id => [id]
  | appendText parent _ => [parent]
  | place piece spot => piece.ids ++ spot.ids
  | fillAttrs id _ => [id]
  | moveChildren id parent => [id, parent]
  | _ => []

/-- The nodes that a call names to have them put elsewhere. -/
def moved : Call → List NodeId
  | append _ child => [child]
  | insertBefore _ id => [id]
  | place piece _ => piece.ids
  | _ => []

/-- What a call leaves behind, whether or not it comes to its end. -/
def after (c : Call) (s : Tree × Log) : Tree × Log :=
  match c.pass s with
  | .ok _ u => u
  | .error _ u => u

end Call

/-- Calls made one after another, each naming only nodes that exist by then. -/
inductive Runs : List Call → Tree × Log → Tree × Log → Prop where
  | nil (s : Tree × Log) : Runs [] s s
  | cons {c : Call} {cs : List Call} {s u : Tree × Log}
    (hids : ∀ i ∈ c.ids, i.index < s.1.size) (hrest : Runs cs (c.after s) u) :
    Runs (c :: cs) s u

end DocTree
