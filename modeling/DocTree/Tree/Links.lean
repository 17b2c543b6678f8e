import DocTree.Tree.Order
set_option autoImplicit false

/-!
# Links: when the links of a row describe one tree

`defect?` walks the attached nodes and answers the first defect it meets: a
link that leads out of the row, a child whose parent link disagrees, neighbours
whose sibling links disagree, or a node met twice.  The order of the walk decides
which of several defects is named: the children of a node are examined from left
to right, and of the nodes still to be examined the one found last comes first.
-/

namespace DocTree

/-- What can be wrong with the links of an attached node. -/
inductive Defect where
  /-- The number is linked but belongs to no node. -/
  | outside (id : NodeId)
  /-- The node is linked from two places. -/
  | repeated (id : NodeId)
  /-- The node stands among the children of `expected`, but its parent link says `found`. -/
  | strayParent (child expected : NodeId) (found : Option NodeId)
  /-- The sibling links at this node do not fit those of its neighbours. -/
  | brokenSiblings (id : NodeId)
  deriving DecidableEq, Repr

namespace Defect

/-- How messages show a parent link. -/
def showLink : Option NodeId → String
  | none => "None"
  | some id => "Some(NodeId(" ++ toString id.index ++ "))"

def message : Defect → String
  | .outside id => "node " ++ id.label ++ " is not in the arena"
  | .repeated id => "node " ++ id.label ++ " is reachable more than once (cycle)"
  | .strayParent child expected found =>
    "node " ++ child.label ++ " is a child of " ++ expected.label ++ " but its parent link is " ++
      showLink found
  | .brokenSiblings id => "sibling links around node " ++ id.label ++ " are inconsistent"

end Defect

namespace Tree

/-- Examines the children of `id` from left to right, of which `before` comes
first, and answers the last of them.  `seen` marks the nodes already examined. -/
def checkChildren (t : Tree) (seen : Array Bool) (id : NodeId) (before : Option NodeId) :
    List NodeId → Except Defect (Option NodeId)
  | [] => .ok before
  | c :: cs =>
    match t.node? c with
    | none => .error (.outside c)
    | some n =>
      if n.parent ≠ some id then .error (.strayParent c id n.parent)
      else if n.prevSibling ≠ before then .error (.brokenSiblings c)
      else if seen[c.index]? = some true then .error (.repeated c)
      else t.checkChildren seen id (some c) cs

/-- Marking a node that was not marked leaves fewer nodes without a mark. -/
theorem count_unmarked_set_lt {seen : Array Bool} {i : Nat} (h : seen[i]? = some false) :
    (seen.set! i true).count false < seen.count false := by
  obtain ⟨hi, hv⟩ := Array.getElem?_eq_some_iff.1 h
  have hpos : 0 < seen.count false := Array.count_pos_iff.2 (hv ▸ Array.getElem_mem hi)
  rw [Array.set!_eq_setIfInBounds, Array.setIfInBounds_def, dif_pos hi, Array.count_set hi, hv]
  simp only [beq_self_eq_true, if_true, show (true == false) = false from rfl,
    Bool.false_eq_true, if_false]
  omega

/-- The first defect among the `pending` nodes and all that is below them. -/
def defectFrom? (t : Tree) (seen : Array Bool) (pending : List NodeId) : Option Defect :=
  match pending with
  | [] => none
  | id :: rest =>
    match _h : seen[id.index]? with
    | none => some (.outside id)
    | some true => some (.repeated id)
    | some false =>
      let marked := seen.set! id.index true
      match t.checkChildren marked id none (t.children id) with
      | .error d => some d
      | .ok last =>
        if t.lastChild? id ≠ last then some (.brokenSiblings id)
        else t.defectFrom? marked ((t.children id).reverse ++ rest)
  termination_by seen.count false
  decreasing_by exact count_unmarked_set_lt (by assumption)

/-- The first defect among the attached nodes.  If there is none, they form a tree. -/
def defect? (t : Tree) : Option Defect :=
  t.defectFrom? (Array.replicate t.size false) [.root]

end Tree

end DocTree
