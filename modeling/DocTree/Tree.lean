import DocTree.Node
set_option autoImplicit false

/-!
# Tree: the numbered row of nodes

`Tree` keeps the nodes of one document, attached or not, in the order in which
they were made.  Nodes are never taken out of the row: detaching a node only
changes links.  The row is never empty, because the document node is made with
it.

The view of a tree is `node?`; `node?_create` and `node?_modify` say what the two
primitive changes do to it.
-/

namespace DocTree

/-- A row of nodes that begins with the document node. -/
structure Tree where
  nodes : Array Node
  nodes_nonempty : 0 < nodes.size

namespace Tree

/-- The tree that holds only the document node. -/
def new : Tree := ⟨#[.detached .document], by decide⟩

instance : Inhabited Tree := ⟨new⟩

/-- The number of nodes, attached or not. -/
def size (t : Tree) : Nat := t.nodes.size

/-- There is nothing but the document node. -/
def isBare (t : Tree) : Bool := t.size ≤ 1

/-- The node with this number. -/
def node? (t : Tree) (id : NodeId) : Option Node := t.nodes[id.index]?

/-! ## The two primitive changes -/

/-- Adds a node without links at the end of the row and answers its number. -/
def create (t : Tree) (payload : Payload) : NodeId × Tree :=
  (.ofNat t.size, ⟨t.nodes.push (.detached payload), by simp⟩)

/-- Changes one node; a number outside the row changes nothing. -/
def modify (t : Tree) (id : NodeId) (f : Node → Node) : Tree :=
  ⟨t.nodes.modify id.index f, by
    rw [Array.size_modify]
    exact t.nodes_nonempty⟩

theorem ext_node? {t u : Tree} (hsize : t.size = u.size) (hu : u.size ≤ NodeId.bound)
    (h : ∀ id, t.node? id = u.node? id) : t = u := by
  cases t with
  | mk a ha =>
    cases u with
    | mk b hb =>
      have hab : a = b := by
        apply Array.ext_getElem?
        intro i
        by_cases hi : i < NodeId.bound
        · have := h (.ofNat i)
          simpa only [node?, NodeId.index_ofNat hi] using this
        · have h1 : b.size ≤ NodeId.bound := hu
          have h2 : a.size = b.size := hsize
          rw [Array.getElem?_eq_none (by omega), Array.getElem?_eq_none (by omega)]
      subst hab
      rfl

theorem node?_eq_none_iff {t : Tree} {id : NodeId} : t.node? id = none ↔ t.size ≤ id.index := by
  simp only [node?, size, Array.getElem?_eq_none_iff]

theorem exists_node?_iff {t : Tree} {id : NodeId} :
    (∃ n, t.node? id = some n) ↔ id.index < t.size := by
  constructor
  · intro ⟨n, h⟩
    exact (Array.getElem?_eq_some_iff.1 h).1
  · intro h
    exact ⟨t.nodes[id.index], Array.getElem?_eq_getElem h⟩

@[simp] theorem size_pos (t : Tree) : 0 < t.size := t.nodes_nonempty

@[simp] theorem size_new : new.size = 1 := rfl

@[simp] theorem size_create (t : Tree) (payload : Payload) :
    (t.create payload).2.size = t.size + 1 := by
  simp only [create, size, Array.size_push]

@[simp] theorem size_modify (t : Tree) (id : NodeId) (f : Node → Node) :
    (t.modify id f).size = t.size := by
  simp only [modify, size, Array.size_modify]

theorem index_create {t : Tree} (h : t.size < NodeId.bound) (payload : Payload) :
    (t.create payload).1.index = t.size := NodeId.index_ofNat h

theorem node?_create (t : Tree) (payload : Payload) (id : NodeId) :
    (t.create payload).2.node? id =
      if id.index = t.size then some (.detached payload) else t.node? id :=
  Array.getElem?_push

theorem node?_modify (t : Tree) (id : NodeId) (f : Node → Node) (id' : NodeId) :
    (t.modify id f).node? id' = if id = id' then (t.node? id').map f else t.node? id' := by
  simp only [modify, node?, Array.getElem?_modify, NodeId.index_inj]

/-! ## Questions about one node

A number outside the row answers as a node would that has nothing to say. -/

def parent? (t : Tree) (id : NodeId) : Option NodeId := (t.node? id).bind Node.parent

def firstChild? (t : Tree) (id : NodeId) : Option NodeId := (t.node? id).bind Node.firstChild

def lastChild? (t : Tree) (id : NodeId) : Option NodeId := (t.node? id).bind Node.lastChild

def prevSibling? (t : Tree) (id : NodeId) : Option NodeId := (t.node? id).bind Node.prevSibling

def nextSibling? (t : Tree) (id : NodeId) : Option NodeId := (t.node? id).bind Node.nextSibling

def payload? (t : Tree) (id : NodeId) : Option Payload := (t.node? id).map Node.payload

/-- The local name of an element. -/
def tagName? (t : Tree) (id : NodeId) : Option String := (t.payload? id).bind Payload.tagName?

/-- The node is an element with this local name, in any namespace. -/
def isTag (t : Tree) (id : NodeId) (tag : String) : Bool := t.tagName? id == some tag

def isElement (t : Tree) (id : NodeId) : Bool := (t.payload? id).any Payload.isElement

def isText (t : Tree) (id : NodeId) : Bool := (t.payload? id).any Payload.isText

/-- The characters of a text node. -/
def text? (t : Tree) (id : NodeId) : Option String := (t.payload? id).bind Payload.text?

/-- The value of the first attribute with this local name. -/
def attr? (t : Tree) (id : NodeId) (name : String) : Option String :=
  (t.payload? id).bind (Payload.attr? name)

/-- The full name of an element. -/
def elementName? (t : Tree) (id : NodeId) : Option QName :=
  (t.payload? id).bind fun
    | .element name _ => some name
    | _ => none

end Tree

end DocTree
