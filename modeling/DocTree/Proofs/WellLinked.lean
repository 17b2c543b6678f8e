import DocTree.Proofs.Moves
set_option autoImplicit false

/-!
# WellLinked: rows in which every node is linked consistently

In a well linked row each node, attached or not, has a child list, stands in the child
list of the parent it names, and has no siblings if it names none.  This says nothing
about circles: a node may be put below itself, and the row stays well linked.  It is
what every edit keeps, whatever the edit moves.
-/

namespace DocTree

namespace Tree

/-- The links of all nodes are consistent with each other. -/
structure WellLinked (t : Tree) : Prop where
  kids : ∀ p, t.HasKids p (t.children p)
  home : ∀ c p, t.parent? c = some p → c ∈ t.children p
  loose : ∀ c, t.parent? c = none → t.Loose c

/-! ## Rows with the same links -/

/-- `u` has the links of `t`. -/
structure SameLinks (t u : Tree) : Prop where
  parent : ∀ x, u.parent? x = t.parent? x
  first : ∀ x, u.firstChild? x = t.firstChild? x
  last : ∀ x, u.lastChild? x = t.lastChild? x
  prev : ∀ x, u.prevSibling? x = t.prevSibling? x
  next : ∀ x, u.nextSibling? x = t.nextSibling? x

namespace SameLinks

theorem hasKids {t u : Tree} {p : NodeId} {ks : List NodeId} (h : t.SameLinks u)
    (hks : t.HasKids p ks) : u.HasKids p ks :=
  hks.congr (h.first p) (h.last p) fun c _ => ⟨h.parent c, h.prev c, h.next c⟩

theorem loose {t u : Tree} {c : NodeId} (h : t.SameLinks u) (hc : t.Loose c) : u.Loose c :=
  ⟨(h.parent c).trans hc.parent, (h.prev c).trans hc.prev, (h.next c).trans hc.next⟩

/-- A node without links adds none. -/
theorem create (t : Tree) (payload : Payload) : t.SameLinks (t.create payload).2 := by
  have hlink : ∀ link : Node → Option NodeId, link (.detached payload) = none →
      ∀ x, ((t.create payload).2.node? x).bind link = (t.node? x).bind link := by
    intro link hlink x
    rw [node?_create]
    split
    · next hx =>
      rw [node?_eq_none_iff.2 (Nat.le_of_eq hx.symm), Option.bind_none, Option.bind_some, hlink]
    · rfl
  exact ⟨hlink Node.parent rfl, hlink Node.firstChild rfl, hlink Node.lastChild rfl,
    hlink Node.prevSibling rfl, hlink Node.nextSibling rfl⟩

/-- Changing a payload changes no link. -/
theorem modify (t : Tree) (id : NodeId) (g : Payload → Payload) :
    t.SameLinks (t.modify id fun n => { n with payload := g n.payload }) := by
  have hrw := Rewrites.modify t id fun n => { n with payload := g n.payload }
  have hlink : ∀ link : Node → Option NodeId,
      (∀ n : Node, link { n with payload := g n.payload } = link n) →
      ∀ x, ((t.modify id fun n => { n with payload := g n.payload }).node? x).bind link =
        (t.node? x).bind link := by
    intro link hlink x
    apply hrw.link_eq link
    intro m
    split
    · exact hlink m
    · rfl
  exact ⟨hlink Node.parent fun _ => rfl, hlink Node.firstChild fun _ => rfl,
    hlink Node.lastChild fun _ => rfl, hlink Node.prevSibling fun _ => rfl,
    hlink Node.nextSibling fun _ => rfl⟩

/-- A row is determined by its links and its payloads. -/
theorem eq_of_payload? {t u : Tree} (h : t.SameLinks u)
    (hpayload : ∀ x, u.payload? x = t.payload? x) (hsize : u.size = t.size) (hle : t.size ≤ NodeId.bound) : u = t := by
  refine ext_node? hsize hle fun x => ?_
  by_cases hx : x.index < t.size
  · obtain ⟨m, hm⟩ := exists_node?_iff.2 hx
    obtain ⟨n, hn⟩ := exists_node?_iff.2 (hsize ▸ hx)
    have hlink : ∀ link : Node → Option NodeId,
        (u.node? x).bind link = (t.node? x).bind link → link n = link m := by
      intro link hlink
      rwa [hn, hm] at hlink
    have hp : n.payload = m.payload := by
      have := hpayload x
      unfold payload? at this
      rw [hn, hm] at this
      exact Option.some.inj this
    rw [hn, hm]
    cases n
    cases m
    cases hp
    cases hlink Node.parent (h.parent x)
    cases hlink Node.firstChild (h.first x)
    cases hlink Node.lastChild (h.last x)
    cases hlink Node.prevSibling (h.prev x)
    cases hlink Node.nextSibling (h.next x)
    rfl
  · have hout := Nat.not_lt.1 hx
    rw [node?_eq_none_iff.2 hout, node?_eq_none_iff.2 (hsize ▸ hout)]

end SameLinks

/-- A node that is made belongs to the row, as do those before it. -/
theorem index_lt_create {t : Tree} (hsize : t.size < NodeId.bound) (payload : Payload) {i : NodeId}
    (hi : i.index < t.size ∨ i = (t.create payload).1) :
    i.index < (t.create payload).2.size := by
  rw [size_create]
  rcases hi with hi | rfl
  · exact Nat.lt_succ_of_lt hi
  · rw [index_create hsize]
    exact Nat.lt_succ_self _

/-- A node that is made stands nowhere. -/
theorem loose_create {t : Tree} (hsize : t.size < NodeId.bound) (payload : Payload) :
    (t.create payload).2.Loose (t.create payload).1 :=
  (SameLinks.create t payload).loose (.of_size_le (Nat.le_of_eq (index_create hsize payload).symm))

namespace WellLinked

variable {t u : Tree} {c p q : NodeId} {left right : List NodeId}

/-- The row that holds only the document node. -/
theorem new : WellLinked Tree.new := by
  have hlink : ∀ (link : Node → Option NodeId), link (.detached .document) = none →
      ∀ x, (Tree.new.node? x).bind link = none := by
    intro link hlink x
    by_cases hx : x.index = 0
    · simp [node?, Tree.new, hx, hlink]
    · have : Tree.new.node? x = none := node?_eq_none_iff.2 (by rw [size_new]; omega)
      rw [this, Option.bind_none]
  refine ⟨fun p => ?_, fun c p h => ?_, fun c _ => ⟨?_, ?_, ?_⟩⟩
  · have hkids : Tree.new.HasKids p [] :=
      ⟨hlink Node.firstChild rfl p, hlink Node.lastChild rfl p, fun l d r h => by simp at h⟩
    rwa [hkids.children_eq]
  · have := (hlink Node.parent rfl c).symm.trans h
    cases this
  · exact hlink Node.parent rfl c
  · exact hlink Node.prevSibling rfl c
  · exact hlink Node.nextSibling rfl c

theorem mem_children_iff (h : t.WellLinked) : c ∈ t.children p ↔ t.parent? c = some p :=
  ⟨(h.kids p).parent?, h.home c p⟩

theorem index_lt_of_lastChild? (h : t.WellLinked) (hc : t.lastChild? p = some c) :
    c.index < t.size :=
  (h.kids p).index_lt (List.mem_of_getLast? ((h.kids p).last ▸ hc))

theorem placed (h : t.WellLinked) (c : NodeId) : t.Placed c := by
  cases hparent : t.parent? c with
  | none => exact Or.inl (h.loose c hparent)
  | some p => exact Or.inr ⟨p, t.children p, h.kids p, h.home c p hparent⟩

/-- A well linked row is determined by its child lists and its payloads. -/
theorem eq_of_children (h : t.WellLinked) (hu : u.WellLinked)
    (hkids : ∀ q, u.children q = t.children q) (hpayload : ∀ x, u.payload? x = t.payload? x)
    (hsize : u.size = t.size) (hle : t.size ≤ NodeId.bound) : u = t := by
  have hparent : ∀ x, u.parent? x = t.parent? x := by
    intro x
    refine Option.ext fun p => ?_
    rw [← hu.mem_children_iff, ← h.mem_children_iff, hkids]
  -- the neighbours of a child are read off the list it stands in
  have hplace : ∀ x, u.prevSibling? x = t.prevSibling? x ∧ u.nextSibling? x = t.nextSibling? x := by
    intro x
    cases hx : t.parent? x with
    | none =>
      have hloose := h.loose x hx
      have hloose' := hu.loose x ((hparent x).trans hx)
      exact ⟨hloose'.prev.trans hloose.prev.symm, hloose'.next.trans hloose.next.symm⟩
    | some p =>
      obtain ⟨left, right, hsplit⟩ := List.append_of_mem (h.home x p hx)
      have hsplit' := (hkids p).trans hsplit
      rw [(h.kids p).prevSibling? hsplit, (h.kids p).nextSibling? hsplit,
        (hu.kids p).prevSibling? hsplit', (hu.kids p).nextSibling? hsplit']
      exact ⟨rfl, rfl⟩
  have hlinks : t.SameLinks u := by
    refine ⟨hparent, fun x => ?_, fun x => ?_, fun x => (hplace x).1, fun x => (hplace x).2⟩
    · rw [(h.kids x).first, (hu.kids x).first, hkids]
    · rw [(h.kids x).last, (hu.kids x).last, hkids]
  exact hlinks.eq_of_payload? hpayload hsize hle

/-- A row with the same links is as well linked. -/
theorem of_sameLinks (h : t.WellLinked) (hu : t.SameLinks u) : u.WellLinked := by
  have hkids : ∀ p, u.HasKids p (t.children p) := fun p => hu.hasKids (h.kids p)
  refine ⟨fun p => ?_, fun c p hc => ?_, fun c hc => ?_⟩
  · rw [(hkids p).children_eq]
    exact hkids p
  · rw [(hkids p).children_eq]
    rw [hu.parent] at hc
    exact h.home c p hc
  · rw [hu.parent] at hc
    exact hu.loose (h.loose c hc)

/-! ## What the edits keep -/

/-- Taking a node out removes it from the child list of its parent. -/
theorem children_takenOut (h : t.WellLinked) (hu : t.TakenOut c u) (q : NodeId) :
    u.children q = (t.children q).erase c :=
  (hu.kids q _ (h.kids q)).children_eq

theorem takenOut (h : t.WellLinked) (hu : t.TakenOut c u) : u.WellLinked := by
  refine ⟨fun q => ?_, fun x q hx => ?_, fun x hx => ?_⟩
  · rw [h.children_takenOut hu]
    exact hu.kids q _ (h.kids q)
  · have hxc : x ≠ c := by
      rintro rfl
      rw [hu.loose.parent] at hx
      cases hx
    rw [h.children_takenOut hu]
    rw [hu.parent x hxc] at hx
    exact (List.mem_erase_of_ne hxc).2 (h.home x q hx)
  · by_cases hxc : x = c
    · exact hxc ▸ hu.loose
    · have hloose := h.loose x ((hu.parent x hxc).symm.trans hx)
      obtain ⟨hprev, hnext⟩ := hu.place x hxc fun q ls hls _ => hloose.not_mem hls
      exact ⟨hx, hprev.trans hloose.prev, hnext.trans hloose.next⟩

/-- Moving a node puts it into the child list of its new parent and removes it from all
others. -/
theorem children_movedTo (h : t.WellLinked) (hu : t.MovedTo c p left right u) (q : NodeId) :
    u.children q = if q = p then left ++ c :: right else (t.children q).erase c := by
  by_cases hqp : q = p
  · rw [if_pos hqp, hqp]
    exact hu.kids_self.children_eq
  · rw [if_neg hqp]
    exact (hu.kids q _ hqp (h.kids q)).children_eq

theorem movedTo (h : t.WellLinked) (hu : t.MovedTo c p left right u)
    (hsplit : (t.children p).erase c = left ++ right) : u.WellLinked := by
  refine ⟨fun q => ?_, fun x q hx => ?_, fun x hx => ?_⟩
  · rw [h.children_movedTo hu]
    split
    · next hqp => exact hqp ▸ hu.kids_self
    · next hqp => exact hu.kids q _ hqp (h.kids q)
  · rw [h.children_movedTo hu]
    by_cases hxc : x = c
    · subst hxc
      obtain rfl := Option.some.inj (hu.parent_self.symm.trans hx)
      simp
    · rw [hu.parent x hxc] at hx
      have hmem : x ∈ (t.children q).erase c := (List.mem_erase_of_ne hxc).2 (h.home x q hx)
      split
      · next hqp =>
        subst hqp
        rw [hsplit] at hmem
        grind
      · exact hmem
  · have hxc : x ≠ c := by
      rintro rfl
      rw [hu.parent_self] at hx
      cases hx
    have hloose := h.loose x ((hu.parent x hxc).symm.trans hx)
    obtain ⟨hprev, hnext⟩ := hu.place x hxc fun q ls hls _ => hloose.not_mem hls
    exact ⟨hx, hprev.trans hloose.prev, hnext.trans hloose.next⟩

end WellLinked

/-! ## What one move achieves -/

/-- `u` is `t`, or `t` with `c` taken out of its place, or with `c` moved to another place. -/
inductive Shifted (t : Tree) (c : NodeId) : Tree → Prop where
  | stays : t.Shifted c t
  | takenOut {u : Tree} (hu : t.TakenOut c u) : t.Shifted c u
  | movedTo {u : Tree} {p : NodeId} {left right : List NodeId} (hu : t.MovedTo c p left right u)
    (hsplit : (t.children p).erase c = left ++ right) : t.Shifted c u

variable {t u : Tree} {c p sib : NodeId}

namespace Shifted

theorem size (hu : t.Shifted c u) : u.size = t.size := by
  cases hu with
  | stays => rfl
  | takenOut hu => exact hu.size
  | movedTo hu _ => exact hu.size

theorem parent (hu : t.Shifted c u) {x : NodeId} (hx : x ≠ c) : u.parent? x = t.parent? x := by
  cases hu with
  | stays => rfl
  | takenOut hu => exact hu.parent x hx
  | movedTo hu _ => exact hu.parent x hx

end Shifted

namespace WellLinked

theorem shifted (h : t.WellLinked) (hu : t.Shifted c u) : u.WellLinked := by
  cases hu with
  | stays => exact h
  | takenOut hu => exact h.takenOut hu
  | movedTo hu hsplit => exact h.movedTo hu hsplit

theorem exists_takenOut (h : t.WellLinked) (hc : c.index < t.size) :
    ∃ u, Edit.detach c t = .ok () u ∧ t.TakenOut c u :=
  Edit.exists_detach_of_placed (h.placed c) hc

theorem exists_append_shifted (h : t.WellLinked) (hp : p.index < t.size)
    (hc : c.index < t.size) : ∃ u, Edit.append p c t = .ok () u ∧ t.Shifted c u := by
  obtain ⟨u, hrun, hu⟩ := Edit.exists_append_of_placed (h.placed c) hc hp (h.kids p)
  exact ⟨u, hrun, .movedTo hu (List.append_nil _).symm⟩

/-- The sibling may be the node itself, and it may stand nowhere. -/
theorem exists_insertBefore_shifted (h : t.WellLinked) (hsib : sib.index < t.size)
    (hc : c.index < t.size) : ∃ u, Edit.insertBefore sib c t = .ok () u ∧ t.Shifted c u := by
  by_cases hne : sib = c
  · subst hne
    exact ⟨t, Edit.insertBefore_self t sib, .stays⟩
  · cases hparent : t.parent? sib with
    | none =>
      obtain ⟨u, hrun, hu⟩ := Edit.exists_insertBefore_of_parent?_eq_none (h.placed c) hc hne hsib
        hparent
      exact ⟨u, hrun, .takenOut hu⟩
    | some p =>
      have hmem : sib ∈ (t.children p).erase c :=
        (List.mem_erase_of_ne hne).2 (h.home sib p hparent)
      obtain ⟨left, right, hsplit⟩ := List.append_of_mem hmem
      obtain ⟨u, hrun, hu⟩ := Edit.exists_insertBefore_of_placed (h.placed c) hc (h.kids p) hsplit
      exact ⟨u, hrun, .movedTo hu hsplit⟩

end WellLinked

end Tree

end DocTree
