set_option autoImplicit false

/-!
# Node: what one place of a document tree holds

A document tree is kept as a numbered row of nodes.  A node has a *payload* (the
document itself, an element, a text, a comment or a document type) and five
*links*, each naming another node by its number or nothing.  Nothing here says
that the links of different nodes agree; which rows of nodes are trees is the
subject of `DocTree.Links`.
-/

namespace DocTree

/-! ## Numbers of nodes -/

/-- The number of a node.  Numbers are 32-bit words, so a row of more than
`2 ^ 32` nodes would use numbers twice. -/
structure NodeId where
  val : UInt32
  deriving DecidableEq, Repr, Inhabited

namespace NodeId

/-- How many numbers there are. -/
abbrev bound : Nat := 4294967296

/-- The document node, always the first of its row. -/
def root : NodeId := ⟨0⟩

/-- The place of the node in its row. -/
def index (id : NodeId) : Nat := id.val.toNat

/-- The number of the node at place `n`; places wrap around at `bound`. -/
def ofNat (n : Nat) : NodeId := ⟨UInt32.ofNat n⟩

/-- How a node is named in messages: `#5`. -/
def label (id : NodeId) : String := "#" ++ toString id.index

theorem index_inj {a b : NodeId} : a.index = b.index ↔ a = b := by
  constructor
  · intro h
    cases a
    cases b
    simp only [index] at h
    exact congrArg NodeId.mk (UInt32.toNat_inj.1 h)
  · intro h
    rw [h]

theorem index_lt (id : NodeId) : id.index < bound := UInt32.toNat_lt_size id.val

@[simp] theorem index_ofNat {n : Nat} (h : n < bound) : (ofNat n).index = n := by
  simp only [index, ofNat]
  exact UInt32.toNat_ofNat_of_lt' h

@[simp] theorem index_root : root.index = 0 := rfl

end NodeId

/-! ## Names and attributes -/

/-- A name of an element or an attribute: the namespace it belongs to, the name
inside that namespace, and the qualifier it was written with, if any. -/
structure QName where
  qualifier : Option String
  space : String
  name : String
  deriving DecidableEq, Repr, Inhabited

namespace QName

/-- The namespace of HTML elements. -/
def htmlSpace : String := "http://www.w3.org/1999/xhtml"

/-- The namespace of SVG elements. -/
def svgSpace : String := "http://www.w3.org/2000/svg"

/-- The namespace of MathML elements. -/
def mathSpace : String := "http://www.w3.org/1998/Math/MathML"

/-- An unqualified name in the HTML namespace. -/
def html (name : String) : QName := ⟨none, htmlSpace, name⟩

/-- A name outside every namespace, as attributes usually have. -/
def plain (name : String) : QName := ⟨none, "", name⟩

end QName

/-- An attribute of an element. -/
structure Attr where
  name : QName
  value : String
  deriving DecidableEq, Repr, Inhabited

/-! ## Payload and links -/

/-- What a node stands for. -/
inductive Payload where
  | document
  | element (name : QName) (attrs : List Attr)
  | text (content : String)
  | comment (content : String)
  | doctype (name publicId systemId : String)
  deriving DecidableEq, Repr, Inhabited

namespace Payload

/-- The local name of an element. -/
def tagName? : Payload → Option String
  | .element name _ => some name.name
  | _ => none

def isElement : Payload → Bool
  | .element _ _ => true
  | _ => false

def isText : Payload → Bool
  | .text _ => true
  | _ => false

/-- The characters of a text node. -/
def text? : Payload → Option String
  | .text content => some content
  | _ => none

/-- The value of the first attribute with this local name, in any namespace. -/
def attr? (name : String) : Payload → Option String
  | .element _ attrs => (attrs.find? fun a => a.name.name == name).map Attr.value
  | _ => none

theorem isText_eq_isSome_text? (p : Payload) : p.isText = p.text?.isSome := by
  cases p <;> rfl

end Payload

/-- One node: its payload and its five links. -/
structure Node where
  payload : Payload
  parent : Option NodeId
  firstChild : Option NodeId
  lastChild : Option NodeId
  prevSibling : Option NodeId
  nextSibling : Option NodeId
  deriving DecidableEq, Repr, Inhabited

/-- A node without links. -/
def Node.detached (payload : Payload) : Node := ⟨payload, none, none, none, none, none⟩

end DocTree
