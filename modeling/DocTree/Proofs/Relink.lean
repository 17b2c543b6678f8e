import DocTree.Edit
import DocTree.Proofs.Kids
set_option autoImplicit false

/-!
# Relink: what an edit does to every node

The two ways of moving a node, taking it out of its place and splicing it in at
another, change several nodes at once, and these may coincide.  Here each of them is a
function of single nodes: `Node.unlinked` and `Node.spliced` say for every number what
its node becomes, and the edits are shown to do just that when the links they follow
stay in the row.
-/

namespace DocTree

/-- What the node `m` at `x` becomes when `c`, whose node is `n`, is taken out of its
place. -/
def Node.unlinked (c : NodeId) (n : Node) (x : NodeId) (m : Node) : Node :=
  { m with
    parent := if x = c then none else m.parent
    firstChild :=
      if n.prevSibling = none ∧ n.parent = some x then n.nextSibling else m.firstChild
    lastChild :=
      if n.nextSibling = none ∧ n.parent = some x then n.prevSibling else m.lastChild
    prevSibling :=
      if x = c then none else if n.nextSibling = some x then n.prevSibling else m.prevSibling
    nextSibling :=
      if x = c then none else if n.prevSibling = some x then n.nextSibling else m.nextSibling }

/-- What the node `m` at `x` becomes when `c` is spliced in below `p`, between its
children `prev` and `next`. -/
def Node.spliced (p : NodeId) (prev next : Option NodeId) (c x : NodeId) (m : Node) : Node :=
  { m with
    parent := if x = c then some p else m.parent
    firstChild := if prev = none ∧ x = p then some c else m.firstChild
    lastChild := if next = none ∧ x = p then some c else m.lastChild
    prevSibling := if x = c then prev else if next = some x then some c else m.prevSibling
    nextSibling := if x = c then next else if prev = some x then some c else m.nextSibling }

namespace Tree

/-- `u` has the nodes of `t`, each rewritten by `f`. -/
structure Rewrites (t u : Tree) (f : NodeId → Node → Node) : Prop where
  size : u.size = t.size
  node : ∀ x, u.node? x = (t.node? x).map (f x)

namespace Rewrites

variable {t u v : Tree} {f g : NodeId → Node → Node}

theorem refl (t : Tree) : t.Rewrites t fun _ m => m where
  size := rfl
  node := by
    intro x
    rw [Option.map_id']

theorem trans (hf : t.Rewrites u f) (hg : u.Rewrites v g) :
    t.Rewrites v fun x m => g x (f x m) where
  size := hg.size.trans hf.size
  node := by
    intro x
    rw [hg.node, hf.node, Option.map_map]
    rfl

theorem congr (h : t.Rewrites u f) (hfg : ∀ x m, f x m = g x m) : t.Rewrites u g := by
  obtain rfl : f = g := funext fun x => funext (hfg x)
  exact h

theorem congr_on (h : t.Rewrites u f) (hfg : ∀ x m, t.node? x = some m → f x m = g x m) :
    t.Rewrites u g where
  size := h.size
  node := by
    intro x
    rw [h.node]
    cases hx : t.node? x with
    | none => rfl
    | some m => rw [Option.map_some, Option.map_some, hfg x m hx]

/-- Changing one node rewrites that node. -/
theorem modify (t : Tree) (id : NodeId) (f : Node → Node) :
    t.Rewrites (t.modify id f) fun x m => if id = x then f m else m where
  size := size_modify t id f
  node := by
    intro x
    rw [node?_modify]
    split
    · rfl
    · rw [Option.map_id']

end Rewrites

/-! ## Links after a rewriting -/

namespace Rewrites

variable {t u : Tree} {f : NodeId → Node → Node} {x : NodeId}

theorem payload?_eq (h : t.Rewrites u f) (hx : ∀ m, (f x m).payload = m.payload) :
    u.payload? x = t.payload? x := by
  unfold payload?
  rw [h.node]
  cases t.node? x with
  | none => rfl
  | some m => exact congrArg some (hx m)

/-- A link that the rewriting leaves alone. -/
theorem link_eq (h : t.Rewrites u f) (link : Node → Option NodeId)
    (hx : ∀ m, link (f x m) = link m) : (u.node? x).bind link = (t.node? x).bind link := by
  rw [h.node]
  cases t.node? x with
  | none => rfl
  | some m => exact hx m

end Rewrites

section Unlinked

variable {t u : Tree} {c : NodeId} {n : Node} {x : NodeId}

theorem parent?_unlinked (h : t.Rewrites u (Node.unlinked c n)) (x : NodeId) :
    u.parent? x = if x = c then none else t.parent? x := by
  unfold parent?
  rw [h.node]
  cases t.node? x <;> simp [Node.unlinked]

theorem firstChild?_unlinked (h : t.Rewrites u (Node.unlinked c n)) (hx : x.index < t.size) :
    u.firstChild? x =
      if n.prevSibling = none ∧ n.parent = some x then n.nextSibling else t.firstChild? x := by
  obtain ⟨m, hm⟩ := exists_node?_iff.2 hx
  unfold firstChild?
  rw [h.node, hm]
  rfl

theorem lastChild?_unlinked (h : t.Rewrites u (Node.unlinked c n)) (hx : x.index < t.size) :
    u.lastChild? x =
      if n.nextSibling = none ∧ n.parent = some x then n.prevSibling else t.lastChild? x := by
  obtain ⟨m, hm⟩ := exists_node?_iff.2 hx
  unfold lastChild?
  rw [h.node, hm]
  rfl

theorem prevSibling?_unlinked (h : t.Rewrites u (Node.unlinked c n)) (hx : x.index < t.size) :
    u.prevSibling? x = if x = c then none
      else if n.nextSibling = some x then n.prevSibling else t.prevSibling? x := by
  obtain ⟨m, hm⟩ := exists_node?_iff.2 hx
  unfold prevSibling?
  rw [h.node, hm]
  rfl

theorem nextSibling?_unlinked (h : t.Rewrites u (Node.unlinked c n)) (hx : x.index < t.size) :
    u.nextSibling? x = if x = c then none
      else if n.prevSibling = some x then n.nextSibling else t.nextSibling? x := by
  obtain ⟨m, hm⟩ := exists_node?_iff.2 hx
  unfold nextSibling?
  rw [h.node, hm]
  rfl

end Unlinked

section Spliced

variable {t u : Tree} {p c : NodeId} {prev next : Option NodeId} {x : NodeId}

theorem parent?_spliced (h : t.Rewrites u (Node.spliced p prev next c)) (hx : x.index < t.size) :
    u.parent? x = if x = c then some p else t.parent? x := by
  obtain ⟨m, hm⟩ := exists_node?_iff.2 hx
  unfold parent?
  rw [h.node, hm]
  rfl

theorem firstChild?_spliced (h : t.Rewrites u (Node.spliced p prev next c))
    (hx : x.index < t.size) :
    u.firstChild? x = if prev = none ∧ x = p then some c else t.firstChild? x := by
  obtain ⟨m, hm⟩ := exists_node?_iff.2 hx
  unfold firstChild?
  rw [h.node, hm]
  rfl

theorem lastChild?_spliced (h : t.Rewrites u (Node.spliced p prev next c))
    (hx : x.index < t.size) :
    u.lastChild? x = if next = none ∧ x = p then some c else t.lastChild? x := by
  obtain ⟨m, hm⟩ := exists_node?_iff.2 hx
  unfold lastChild?
  rw [h.node, hm]
  rfl

theorem prevSibling?_spliced (h : t.Rewrites u (Node.spliced p prev next c))
    (hx : x.index < t.size) :
    u.prevSibling? x = if x = c then prev
      else if next = some x then some c else t.prevSibling? x := by
  obtain ⟨m, hm⟩ := exists_node?_iff.2 hx
  unfold prevSibling?
  rw [h.node, hm]
  rfl

theorem nextSibling?_spliced (h : t.Rewrites u (Node.spliced p prev next c))
    (hx : x.index < t.size) :
    u.nextSibling? x = if x = c then next
      else if prev = some x then some c else t.nextSibling? x := by
  obtain ⟨m, hm⟩ := exists_node?_iff.2 hx
  unfold nextSibling?
  rw [h.node, hm]
  rfl

end Spliced

/-! ## The two links across a seam

Between a child and the next one, or before the first and behind the last, there is a
seam with one link across it in each direction.  At the ends of a child list the
parent holds the link. -/

/-- Writes the link that leads forward from `prev`, or from `parent` if there is no
node before the seam. -/
def linkForward (t : Tree) (parent prev target : Option NodeId) : Tree :=
  match prev, parent with
  | some a, _ => t.modify a fun m => { m with nextSibling := target }
  | none, some p => t.modify p fun m => { m with firstChild := target }
  | none, none => t

/-- Writes the link that leads backward from `next`, or from `parent` if there is no
node behind the seam. -/
def linkBackward (t : Tree) (parent next target : Option NodeId) : Tree :=
  match next, parent with
  | some b, _ => t.modify b fun m => { m with prevSibling := target }
  | none, some p => t.modify p fun m => { m with lastChild := target }
  | none, none => t

theorem rewrites_linkForward (t : Tree) (parent prev target : Option NodeId) :
    t.Rewrites (t.linkForward parent prev target) fun x m =>
      { m with
        firstChild := if prev = none ∧ parent = some x then target else m.firstChild
        nextSibling := if prev = some x then target else m.nextSibling } := by
  cases prev with
  | some a =>
    apply (Rewrites.modify t a _).congr
    intro x m
    by_cases hx : a = x <;> simp [hx]
  | none =>
    cases parent with
    | some p =>
      apply (Rewrites.modify t p _).congr
      intro x m
      by_cases hx : p = x <;> simp [hx]
    | none => exact (Rewrites.refl t).congr fun x m => by simp

theorem rewrites_linkBackward (t : Tree) (parent next target : Option NodeId) :
    t.Rewrites (t.linkBackward parent next target) fun x m =>
      { m with
        lastChild := if next = none ∧ parent = some x then target else m.lastChild
        prevSibling := if next = some x then target else m.prevSibling } := by
  cases next with
  | some b =>
    apply (Rewrites.modify t b _).congr
    intro x m
    by_cases hx : b = x <;> simp [hx]
  | none =>
    cases parent with
    | some p =>
      apply (Rewrites.modify t p _).congr
      intro x m
      by_cases hx : p = x <;> simp [hx]
    | none => exact (Rewrites.refl t).congr fun x m => by simp

/-- The links by which `n` stands in its place lead to nodes of the row. -/
structure Seated (t : Tree) (n : Node) : Prop where
  parent : ∀ p, n.parent = some p → p.index < t.size
  prev : ∀ a, n.prevSibling = some a → a.index < t.size
  next : ∀ b, n.nextSibling = some b → b.index < t.size

end Tree

namespace Edit

open DocTree.Tree

/-- A node whose links stay in the row is taken out of its place. -/
theorem exists_detach_eq_ok {t : Tree} {c : NodeId} {n : Node} (hn : t.node? c = some n)
    (hseat : t.Seated n) :
    ∃ u, detach c t = .ok () u ∧ t.Rewrites u (Node.unlinked c n) := by
  have hc : c.index < t.size := exists_node?_iff.1 ⟨n, hn⟩
  let u := ((t.linkForward n.parent n.prevSibling n.nextSibling).linkBackward
    n.parent n.nextSibling n.prevSibling).modify c
      fun m => { m with parent := none, prevSibling := none, nextSibling := none }
  refine ⟨u, ?_, ?_⟩
  · obtain ⟨payload, parent, first, last, prev, next⟩ := n
    obtain ⟨hp, ha, hb⟩ := hseat
    cases prev <;> cases next <;> cases parent <;>
      simp_all [u, detach, linkForward, linkBackward, look, change, size_modify]
  · refine (((rewrites_linkForward t _ _ _).trans (rewrites_linkBackward _ _ _ _)).trans
      (Rewrites.modify _ c _)).congr fun x m => ?_
    by_cases hx : c = x
    · simp [Node.unlinked, hx]
    · simp [Node.unlinked, hx, Ne.symm hx]

/-- A node that stands nowhere is spliced in behind the last child of `p`. -/
theorem exists_append_eq_ok {t s : Tree} {p c : NodeId} {last : Option NodeId}
    (hs : detach c t = .ok () s) (hp : p.index < s.size) (hc : c.index < s.size)
    (hnext : s.nextSibling? c = none) (hlast : s.lastChild? p = last)
    (hin : ∀ a, last = some a → a.index < s.size ∧ a ≠ c) :
    ∃ u, append p c t = .ok () u ∧ s.Rewrites u (Node.spliced p last none c) := by
  let link : Node → Node := fun m => { m with parent := some p, prevSibling := last }
  let u := ((s.modify c link).linkForward (some p) last (some c)).linkBackward
    (some p) none (some c)
  obtain ⟨m, hm⟩ := exists_node?_iff.2 hp
  obtain ⟨k, hk⟩ := exists_node?_iff.2 hc
  have hm' : m.lastChild = last := by simpa [lastChild?, hm] using hlast
  have hk' : k.nextSibling = none := by simpa [nextSibling?, hk] using hnext
  refine ⟨u, ?_, ?_⟩
  · cases last <;>
      simp_all [u, link, append, linkForward, linkBackward, look, change, size_modify]
  · refine Rewrites.congr_on (((Rewrites.modify s c link).trans
      (rewrites_linkForward _ _ _ _)).trans (rewrites_linkBackward _ _ _ _)) fun x m' hx => ?_
    by_cases hxc : c = x
    · subst hxc
      have hmk : m' = k := Option.some.inj (hx.symm.trans hk)
      have hne : last ≠ some c := fun h => (hin c h).2 rfl
      simp [Node.spliced, link, hmk, hk', hne, eq_comm]
    · simp [Node.spliced, hxc, Ne.symm hxc, eq_comm]

/-- A node that stands nowhere is spliced in before a sibling that has a parent. -/
theorem exists_insertBefore_eq_ok {t s : Tree} {p sib c : NodeId} {prev : Option NodeId}
    (hs : detach c t = .ok () s) (hne : sib ≠ c) (hp : p.index < s.size) (hc : c.index < s.size)
    (hparent : s.parent? sib = some p) (hprev : s.prevSibling? sib = prev)
    (hin : ∀ a, prev = some a → a.index < s.size ∧ a ≠ c) :
    ∃ u, insertBefore sib c t = .ok () u ∧ s.Rewrites u (Node.spliced p prev (some sib) c) := by
  let link : Node → Node := fun m =>
    { m with parent := some p, prevSibling := prev, nextSibling := some sib }
  let u := ((s.modify c link).linkBackward (some p) (some sib) (some c)).linkForward
    (some p) prev (some c)
  have hsib : sib.index < s.size := index_lt_of_parent? hparent
  obtain ⟨k, hk⟩ := exists_node?_iff.2 hsib
  have hparent' : k.parent = some p := by simpa [parent?, hk] using hparent
  have hprev' : k.prevSibling = prev := by simpa [prevSibling?, hk] using hprev
  refine ⟨u, ?_, ?_⟩
  · cases prev <;>
      simp_all [u, link, insertBefore, linkForward, linkBackward, look, change, size_modify]
  · refine Rewrites.congr (((Rewrites.modify s c link).trans
      (rewrites_linkBackward _ _ _ _)).trans (rewrites_linkForward _ _ _ _)) fun x m => ?_
    by_cases hxc : c = x
    · subst hxc
      have hne' : prev ≠ some c := fun h => (hin c h).2 rfl
      simp [Node.spliced, link, hne, hne', eq_comm]
    · simp [Node.spliced, hxc, Ne.symm hxc, eq_comm]

/-- Before a sibling without a parent nothing is spliced in; the node stays out. -/
theorem insertBefore_eq_ok_of_parent?_eq_none {t s : Tree} {sib c : NodeId}
    (hs : detach c t = .ok () s) (hne : sib ≠ c) (hsib : sib.index < s.size)
    (hparent : s.parent? sib = none) : insertBefore sib c t = .ok () s := by
  obtain ⟨k, hk⟩ := exists_node?_iff.2 hsib
  have hparent' : k.parent = none := by simpa [parent?, hk] using hparent
  simp [insertBefore, hne, hs, look, hk, hparent']

/-- A node is not moved before itself. -/
@[simp] theorem insertBefore_self (t : Tree) (c : NodeId) : insertBefore c c t = .ok () t := by
  simp [insertBefore]

end Edit

end DocTree
