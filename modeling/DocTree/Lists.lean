import DocTree.Edit.Walk
import DocTree.Log
set_option autoImplicit false

/-!
# Lists: every child of a list becomes a list item

Markup lets text, inline elements and even whole lists stand directly inside a
list, where a Markdown list has no place for them.  `regroupLists` moves each such
child into the nearest item before it; children that stand before the first item
go into an item made for them in their place.  Nodes are moved, never copied or
dropped, and keep their order.

The pass walks from the top down, so a list that is moved into an item is itself
regrouped when the walk comes to it.
-/

namespace DocTree

/-- The elements that hold list items. -/
def listTags : List String := ["ul", "ol"]

/-- The element that is a list item. -/
def itemTag : String := "li"

namespace Tree

/-- The node is a list, in any namespace. -/
def isList (t : Tree) (id : NodeId) : Bool := (t.tagName? id).any listTags.contains

/-- The node is a list item, in any namespace. -/
def isItem (t : Tree) (id : NodeId) : Bool := t.isTag id itemTag

end Tree

/-- What a pass over the lists counts. -/
structure Tally where
  lists : Nat
  moved : Nat
  created : Nat
  deriving DecidableEq, Repr, Inhabited

namespace Tally

def zero : Tally := ⟨0, 0, 0⟩

/-- The report at the end of a pass. -/
def report (c : Tally) : Event := .regrouped c.lists c.moved c.created

end Tally

/-! ## One list -/

/-- The item that takes the stray child `child`: the nearest one before it, or a
new one in its place. -/
def itemFor (child : NodeId) : Option NodeId → Pass (Log × Tally) NodeId
  | some item => pure item
  | none => do
    let item ← Pass.edit (Edit.createHtml itemTag)
    Pass.edit (Edit.insertBefore child item)
    Pass.note fun (log, c) => (log, { c with created := c.created + 1 })
    pure item

/-- Moves the stray ones among `children` into items of `list`; `item` is the
nearest item before them. -/
def gatherStrays (list : NodeId) (item : Option NodeId) : List NodeId → Pass (Log × Tally) Unit
  | [] => pure ()
  | child :: children => do
    if (← Pass.tree).isItem child then
      gatherStrays list (some child) children
    else
      let item ← itemFor child item
      Pass.edit (Edit.append item child)
      Pass.note fun (log, c) =>
        (log.push (.moved child list item), { c with moved := c.moved + 1 })
      gatherStrays list (some item) children

/-- Regroups the children of one node if it is a list. -/
def regroupList (id : NodeId) : Pass (Log × Tally) Unit := do
  if (← Pass.tree).isList id then
    Pass.note fun (log, c) => (log, { c with lists := c.lists + 1 })
    gatherStrays id none ((← Pass.tree).children id)

/-! ## All lists -/

/-- Regroups all attached lists and reports what was done.  A tree with defective
links is refused before anything is changed. -/
def regroupLists : Pass Log Unit := do
  match (← Pass.tree).defect? with
  | some defect => throw (.malformed defect)
  | none =>
    let (_, c) ← Pass.withState Tally.zero (walk regroupList .root)
    Pass.note fun log => log.push c.report

end DocTree
