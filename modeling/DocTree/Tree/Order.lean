import DocTree.Tree
set_option autoImplicit false

/-!
# Order: children, document order, search

Reading a tree downwards uses two links only: the children of a node are its
first child and then every next sibling, and document order lists a node before
its children and each child with all that is below it before the next child.

Links may be wired in any way, so a chain of siblings or a walk downwards need
not end.  Every reading here takes a bound, and the readings without one use a
bound that no well linked tree reaches.
-/

namespace DocTree

namespace Tree

/-! ## Children -/

/-- The first `limit` numbers of the sibling chain that begins at `start`.  A
number outside the row belongs to the chain and ends it. -/
def chain (t : Tree) : Nat → Option NodeId → List NodeId
  | 0, _ => []
  | _ + 1, none => []
  | limit + 1, some id => id :: t.chain limit (t.nextSibling? id)

/-- The children of a node.  A chain without repetition has at most `size`
numbers of nodes and one number outside the row, so a longer chain runs in a
circle and is cut. -/
def children (t : Tree) (id : NodeId) : List NodeId := t.chain (t.size + 1) (t.firstChild? id)

@[simp] theorem chain_none (t : Tree) (limit : Nat) : t.chain limit none = [] := by
  cases limit <;> rfl

@[simp] theorem chain_succ_some (t : Tree) (limit : Nat) (id : NodeId) :
    t.chain (limit + 1) (some id) = id :: t.chain limit (t.nextSibling? id) := rfl

/-! ## Document order -/

/-- The first `limit` numbers in document order of the subtrees that hang at the
`pending` numbers, from left to right. -/
def preorder (t : Tree) : Nat → List NodeId → List NodeId
  | 0, _ => []
  | _ + 1, [] => []
  | limit + 1, id :: pending => id :: t.preorder limit (t.children id ++ pending)

/-- A node and all that is below it, in document order.  In a well linked tree
these are at most `size` numbers; a longer sequence repeats a node and is cut. -/
def descendants (t : Tree) (id : NodeId) : List NodeId := t.preorder t.size [id]

@[simp] theorem preorder_nil (t : Tree) (limit : Nat) : t.preorder limit [] = [] := by
  cases limit <;> rfl

@[simp] theorem preorder_succ_cons (t : Tree) (limit : Nat) (id : NodeId) (pending : List NodeId) :
    t.preorder (limit + 1) (id :: pending) =
      id :: t.preorder limit (t.children id ++ pending) := rfl

/-! ## Search -/

/-- The first node in document order below `id` (itself included, `depth` levels
in all) that satisfies `p`. -/
def findBelow (t : Tree) (p : Node → Bool) : Nat → NodeId → Option NodeId
  | 0, _ => none
  | depth + 1, id =>
    if (t.node? id).any p then some id else (t.children id).findSome? (t.findBelow p depth)

/-- The first attached node in document order that satisfies `p`.  A path to the
first such node repeats no node, so it has at most `size` levels. -/
def find? (t : Tree) (p : Node → Bool) : Option NodeId := t.findBelow p t.size .root

/-- The first attached element with this local name. -/
def findTag? (t : Tree) (tag : String) : Option NodeId :=
  t.find? fun n => n.payload.tagName? == some tag

end Tree

end DocTree
