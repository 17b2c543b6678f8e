import DocTree.Tree.Links
set_option autoImplicit false

/-!
# Edit: changes to the links of a tree

An `Edit` changes a tree and answers a value, or stops with a fault and leaves
behind the tree as it was at that moment: link writes made before the fault stay.
The order of the writes is therefore part of what each edit means.

Edits trust the links they find.  They do not ask whether the row is a tree, and
the only thing that stops them is a link or an argument that leads out of it.
-/

namespace DocTree

/-- Why an edit or a pass stopped. -/
inductive Fault where
  /-- A number outside the row was used. -/
  | outside
  /-- A pass refused a tree whose links are defective. -/
  | malformed (defect : Defect)
  /-- A walk came to more nodes than there are; the last one is named. -/
  | circular (id : NodeId)
  deriving DecidableEq, Repr, Inhabited

namespace Fault

/-- The words of a fault; a number outside the row has none. -/
def message? : Fault → Option String
  | .outside => none
  | .malformed defect => some ("normalize_lists called on a malformed tree: " ++ defect.message)
  | .circular id =>
    some ("document tree contains a cycle (revisited near node " ++ id.label ++ ")")

end Fault

/-! ## Steps one after another

What a series of steps does is read off by simplification: each step answers, or stops the
series. -/

section Steps

variable {σ α β : Type}

@[simp] theorem pure_apply (a : α) (s : σ) : (pure a : EStateM Fault σ α) s = .ok a s := rfl

@[simp] theorem throw_apply (fault : Fault) (s : σ) :
    (throw fault : EStateM Fault σ α) s = .error fault s := rfl

@[simp] theorem get_apply (s : σ) : (get : EStateM Fault σ σ) s = .ok s s := rfl

@[simp] theorem bind_apply (e : EStateM Fault σ α) (f : α → EStateM Fault σ β) (s : σ) :
    (e >>= f) s =
      match e s with
      | .ok a u => f a u
      | .error fault u => .error fault u := by
  cases h : e s <;> simp only [bind, EStateM.bind, h]

@[simp] theorem map_apply (f : α → β) (e : EStateM Fault σ α) (s : σ) :
    (f <$> e) s =
      match e s with
      | .ok a u => .ok (f a) u
      | .error fault u => .error fault u := by
  cases h : e s <;> simp only [Functor.map, EStateM.map, h]

end Steps

/-- A change to a tree that may stop with a fault. -/
abbrev Edit := EStateM Fault Tree

namespace Edit

/-- The tree that an edit leaves behind, whether or not it comes to its end. -/
def leave {α : Type} (e : Edit α) (t : Tree) : Tree :=
  match e t with
  | .ok _ u => u
  | .error _ u => u

/-! ## Reading and writing one node -/

/-- Reads a node. -/
def look (id : NodeId) : Edit Node := fun t =>
  match t.node? id with
  | some n => .ok n t
  | none => .error .outside t

/-- Changes a node. -/
def change (id : NodeId) (f : Node → Node) : Edit Unit := fun t =>
  if id.index < t.size then .ok () (t.modify id f) else .error .outside t

/-- Makes a node without links and answers its number. -/
def create (payload : Payload) : Edit NodeId := fun t =>
  let made := t.create payload
  .ok made.1 made.2

theorem look_eq_ok {id : NodeId} {t : Tree} {n : Node} (h : t.node? id = some n) :
    look id t = .ok n t := by
  simp only [look, h]

theorem look_eq_error {id : NodeId} {t : Tree} (h : t.size ≤ id.index) :
    look id t = .error .outside t := by
  simp only [look, Tree.node?_eq_none_iff.2 h]

theorem change_eq_ok {id : NodeId} {t : Tree} (h : id.index < t.size) (f : Node → Node) :
    change id f t = .ok () (t.modify id f) := by
  simp only [change, if_pos h]

theorem change_eq_error {id : NodeId} {t : Tree} (h : t.size ≤ id.index) (f : Node → Node) :
    change id f t = .error .outside t := by
  simp only [change, if_neg (Nat.not_lt.2 h)]

@[simp] theorem create_apply (payload : Payload) (t : Tree) :
    create payload t = .ok (t.create payload).1 (t.create payload).2 := rfl

theorem leave_eq_of_ok {α : Type} {e : Edit α} {a : α} {t u : Tree} (h : e t = .ok a u) :
    e.leave t = u := by
  rw [leave, h]

/-! ## Making nodes -/

def createElement (name : QName) (attrs : List Attr) : Edit NodeId :=
  create (.element name attrs)

/-- An HTML element without attributes. -/
def createHtml (tag : String) : Edit NodeId := createElement (.html tag) []

def createText (content : String) : Edit NodeId := create (.text content)

def createComment (content : String) : Edit NodeId := create (.comment content)

def createDoctype (name publicId systemId : String) : Edit NodeId :=
  create (.doctype name publicId systemId)

/-! ## Moving nodes -/

/-- Takes a node, with all that is below it, out of its place.  It stays in the
row and can be put back. -/
def detach (id : NodeId) : Edit Unit := do
  let n ← look id
  match n.prevSibling, n.parent with
  | some prev, _ => change prev fun m => { m with nextSibling := n.nextSibling }
  | none, some parent => change parent fun m => { m with firstChild := n.nextSibling }
  | none, none => pure ()
  match n.nextSibling, n.parent with
  | some next, _ => change next fun m => { m with prevSibling := n.prevSibling }
  | none, some parent => change parent fun m => { m with lastChild := n.prevSibling }
  | none, none => pure ()
  change id fun m => { m with parent := none, prevSibling := none, nextSibling := none }

/-- Makes `child` the last child of `parent`, taking it out of its place first. -/
def append (parent child : NodeId) : Edit Unit := do
  detach child
  let last := (← look parent).lastChild
  change child fun m => { m with parent := some parent, prevSibling := last }
  match last with
  | some last => change last fun m => { m with nextSibling := some child }
  | none => change parent fun m => { m with firstChild := some child }
  change parent fun m => { m with lastChild := some child }

/-- Puts `id` immediately before `sibling`, taking it out of its place first.  If
`sibling` has no parent then, `id` stays out. -/
def insertBefore (sibling id : NodeId) : Edit Unit := do
  if sibling = id then return
  detach id
  let next ← look sibling
  match next.parent with
  | none => return
  | some parent =>
    change id fun m =>
      { m with parent := some parent, prevSibling := next.prevSibling, nextSibling := some sibling }
    change sibling fun m => { m with prevSibling := some id }
    match next.prevSibling with
    | some prev => change prev fun m => { m with nextSibling := some id }
    | none => change parent fun m => { m with firstChild := some id }

/-! ## Text -/

/-- Writes characters behind those of a text node. -/
def extendText (id : NodeId) (old new : String) : Edit Unit :=
  change id fun m => { m with payload := .text (old ++ new) }

/-- Puts characters behind all that is in `parent`: into its last child if that is
a text, else into a text made for them. -/
def appendText (parent : NodeId) (content : String) : Edit Unit := do
  let addition : Edit Unit := do append parent (← createText content)
  match (← look parent).lastChild with
  | none => addition
  | some last =>
    match (← look last).payload with
    | .text old => extendText last old content
    | _ => addition

end Edit

end DocTree
