import DocTree.Edit
set_option autoImplicit false

/-!
# Walk: passes that change a tree while they walk through it

A pass carries a state of its own beside the tree.  `walk` visits the nodes of a
subtree from the top down and reads the children of a node only after its visit,
so a visit may rearrange what is below its node and the walk goes on through the
new arrangement.

A walk that comes to more nodes than the row holds has met some node twice.  It
then stops with a fault before the visit.
-/

namespace DocTree

/-- A change to a tree and to a state beside it that may stop with a fault; what
was done before the fault stays. -/
abbrev Pass (σ : Type) := EStateM Fault (Tree × σ)

namespace Pass

variable {σ τ α : Type}

/-- The tree at this moment. -/
def tree : Pass σ Tree := fun s => .ok s.1 s

/-- The state beside the tree at this moment. -/
def own : Pass σ σ := fun s => .ok s.2 s

/-- Changes the state beside the tree. -/
def note (f : σ → σ) : Pass σ Unit := fun (t, s) => .ok () (t, f s)

/-- An edit of the tree; the state beside it stays. -/
def edit (e : Edit α) : Pass σ α := fun (t, s) =>
  match e t with
  | .ok a t => .ok a (t, s)
  | .error fault t => .error fault (t, s)

/-- A pass that uses a further state, which begins as `start` and is answered at
the end. -/
def withState (start : τ) (p : Pass (σ × τ) α) : Pass σ (α × τ) := fun (t, s) =>
  match p (t, s, start) with
  | .ok a (t, s, r) => .ok (a, r) (t, s)
  | .error fault (t, s, _) => .error fault (t, s)

@[simp] theorem tree_apply (s : Tree × σ) : (tree : Pass σ Tree) s = .ok s.1 s := rfl

@[simp] theorem note_apply (f : σ → σ) (s : Tree × σ) : note f s = .ok () (s.1, f s.2) := rfl

@[simp] theorem edit_apply (e : Edit α) (s : Tree × σ) :
    edit e s =
      match e s.1 with
      | .ok a t => .ok a (t, s.2)
      | .error fault t => .error fault (t, s.2) := rfl

@[simp] theorem withState_apply (start : τ) (p : Pass (σ × τ) α) (s : Tree × σ) :
    withState start p s =
      match p (s.1, s.2, start) with
      | .ok a (t, s, r) => .ok (a, r) (t, s)
      | .error fault (t, s, _) => .error fault (t, s) := rfl

end Pass

/-! ## The walk -/

variable {σ : Type}

/-- At most `steps` visits of a walk that has made `visited` visits and still has
the subtrees at `pending` before it.  Answers what is left, which is nothing when
the walk came to its end. -/
def walkFrom (visit : NodeId → Pass σ Unit) :
    (steps visited : Nat) → (pending : List NodeId) → Pass σ (List NodeId)
  | 0, _, pending => pure pending
  | _ + 1, _, [] => pure []
  | steps + 1, visited, id :: pending => do
    let room := (← Pass.tree).size
    if room < visited + 1 then throw (.circular id)
    visit id
    let below := (← Pass.tree).children id
    walkFrom visit steps (visited + 1) (below ++ pending)

/-- A number that no walk exceeds in a row whose nodes have numbers of their own:
the visits are never more than the nodes, and these are at most `NodeId.bound`. -/
def walkLimit : Nat := NodeId.bound + 1

/-- Visits the nodes of the subtree at `start` from the top down. -/
def walk (visit : NodeId → Pass σ Unit) (start : NodeId) : Pass σ Unit := do
  let _ ← walkFrom visit walkLimit 0 [start]

end DocTree
