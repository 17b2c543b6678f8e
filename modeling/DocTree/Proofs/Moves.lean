import DocTree.Proofs.Relink
set_option autoImplicit false

/-!
# Moves: what moving a node does to child lists

Taking `c` out of the child list `left ++ c :: right` of `p` leaves `left ++ right`, and
splicing it in between `left` and `right` makes `left ++ c :: right`; the child lists of
all other nodes stay.  Both hold of single child lists in a row whose other nodes are
linked in any way.
-/

namespace DocTree

namespace Tree

/-- A place in a joined list is a place in one of the two parts. -/
theorem append_eq_append_cons {α : Type} {left right l r : List α} {d : α}
    (h : left ++ right = l ++ d :: r) :
    (∃ m, l = left ++ m ∧ right = m ++ d :: r) ∨ (∃ m, left = l ++ d :: m ∧ r = m ++ right) := by
  rcases List.append_eq_append_iff.1 h with ⟨m, hl, hm⟩ | ⟨m, hl, hm⟩
  · exact Or.inl ⟨m, hl, hm⟩
  · cases m with
    | nil => exact Or.inl ⟨[], by simpa using hl.symm, by simpa using hm.symm⟩
    | cons e m =>
      obtain ⟨rfl, rfl⟩ := List.cons.inj hm
      exact Or.inr ⟨m, hl, rfl⟩

theorem getLast?_ne_of_not_mem {l : List NodeId} {x : NodeId} (h : x ∉ l) :
    l.getLast? ≠ some x := fun hx => h (List.mem_of_getLast? hx)

theorem head?_ne_of_not_mem {l : List NodeId} {x : NodeId} (h : x ∉ l) : l.head? ≠ some x :=
  fun hx => h (List.mem_of_head? hx)

/-- The node stands nowhere: it has neither a parent nor siblings. -/
structure Loose (t : Tree) (c : NodeId) : Prop where
  parent : t.parent? c = none
  prev : t.prevSibling? c = none
  next : t.nextSibling? c = none

namespace HasKids

variable {t u : Tree} {p q c : NodeId} {n : Node} {left right ls : List NodeId}

/-! ## Taking a child out -/

/-- The links of a child lead to its parent and its neighbours. -/
theorem links_of_split (h : t.HasKids p (left ++ c :: right)) (hn : t.node? c = some n) :
    n.parent = some p ∧ n.prevSibling = left.getLast? ∧ n.nextSibling = right.head? := by
  have hkid := h.kid left c right rfl
  unfold Tree.parent? Tree.prevSibling? Tree.nextSibling? at hkid
  rw [hn] at hkid
  exact hkid

theorem seated (h : t.HasKids p (left ++ c :: right)) (hn : t.node? c = some n) :
    t.Seated n := by
  obtain ⟨hparent, hprev, hnext⟩ := h.links_of_split hn
  refine ⟨fun q hq => ?_, fun a ha => ?_, fun b hb => ?_⟩
  · rw [hparent] at hq
    obtain rfl := Option.some.inj hq
    exact h.parent_index_lt (c := c) (by simp)
  · rw [hprev] at ha
    exact h.index_lt (by simp [List.mem_of_getLast? ha])
  · rw [hnext] at hb
    exact h.index_lt (by simp [List.mem_of_head? hb])

/-- The child list without the child that is taken out. -/
theorem unlinked (h : t.HasKids p (left ++ c :: right)) (hn : t.node? c = some n)
    (hr : t.Rewrites u (Node.unlinked c n)) : u.HasKids p (left ++ right) := by
  obtain ⟨hparent, hprev, hnext⟩ := h.links_of_split hn
  have hp : p.index < t.size := h.parent_index_lt (c := c) (by simp)
  have hnodup : (left ++ c :: right).Nodup := h.nodup
  refine ⟨?_, ?_, ?_⟩
  · rw [firstChild?_unlinked hr hp, hprev, hparent, hnext, h.first]
    cases left <;> simp
  · rw [lastChild?_unlinked hr hp, hprev, hparent, hnext, h.last]
    cases right <;> simp
  · intro l d r hsplit
    have hcl : c ∉ left ++ right := by grind
    have hd : d ∈ left ++ right := by simp [hsplit]
    have hdc : d ≠ c := fun hdc => hcl (hdc ▸ hd)
    have hds : d.index < t.size := h.index_lt (by grind)
    rw [parent?_unlinked hr, prevSibling?_unlinked hr hds, nextSibling?_unlinked hr hds,
      if_neg hdc, if_neg hdc, if_neg hdc, hprev, hnext]
    -- the place of `d` is left or right of the gap
    rcases append_eq_append_cons hsplit with ⟨m, rfl, hm⟩ | ⟨m, hm, rfl⟩
    · obtain ⟨h1, h2, h3⟩ := h.kid (left ++ c :: m) d r (by rw [hm]; simp)
      have hleft : left.getLast? ≠ some d := getLast?_ne_of_not_mem (by grind)
      rw [if_neg hleft, h1, h2, h3]
      refine ⟨rfl, ?_, rfl⟩
      cases m with
      | nil => simp [hm]
      | cons b m =>
        have hb : right.head? ≠ some d := by grind
        rw [if_neg hb]
        simp
    · obtain ⟨h1, h2, h3⟩ := h.kid l d (m ++ c :: right) (by rw [hm]; simp)
      have hright : right.head? ≠ some d := head?_ne_of_not_mem (by grind)
      rw [if_neg hright, h1, h2, h3]
      refine ⟨rfl, rfl, ?_⟩
      cases m with
      | nil => simp [hm]
      | cons e m =>
        have he : left.getLast? ≠ some d := by
          have hlast : left.getLast? = (e :: m).getLast? := by simp [hm, List.getLast?_cons]
          rw [hlast]
          exact getLast?_ne_of_not_mem (by grind)
        rw [if_neg he]
        simp

/-- The child lists of other parents stay when a child is taken out. -/
theorem unlinked_of_ne (h : t.HasKids p (left ++ c :: right)) (hn : t.node? c = some n)
    (hr : t.Rewrites u (Node.unlinked c n)) (hls : t.HasKids q ls) (hqp : q ≠ p) :
    u.HasKids q ls := by
  obtain ⟨hparent, hprev, hnext⟩ := h.links_of_split hn
  have hq : n.parent ≠ some q := by
    rw [hparent]
    exact fun hpq => hqp (Option.some.inj hpq).symm
  have hout : ∀ d ∈ ls, d ∉ left ++ c :: right := fun d hd => hls.not_mem_of_ne h hqp hd
  apply hls.congr
  · exact hr.link_eq Node.firstChild fun m => by simp [Node.unlinked, hq]
  · exact hr.link_eq Node.lastChild fun m => by simp [Node.unlinked, hq]
  · intro d hd
    have hdo := hout d hd
    have hdc : d ≠ c := by grind
    have hds := hls.index_lt hd
    have hdp : left.getLast? ≠ some d := getLast?_ne_of_not_mem (by grind)
    have hdn : right.head? ≠ some d := head?_ne_of_not_mem (by grind)
    rw [parent?_unlinked hr, prevSibling?_unlinked hr hds, nextSibling?_unlinked hr hds,
      if_neg hdc, if_neg hdc, if_neg hdc, hprev, hnext, if_neg hdp, if_neg hdn]
    exact ⟨rfl, rfl, rfl⟩

/-! ## Splicing a child in -/

/-- The child list with the child that is spliced in. -/
theorem spliced (h : t.HasKids p (left ++ right)) (hp : p.index < t.size)
    (hc : c.index < t.size) (hcl : c ∉ left ++ right)
    (hr : t.Rewrites u (Node.spliced p left.getLast? right.head? c)) :
    u.HasKids p (left ++ c :: right) := by
  have hnodup : (left ++ right).Nodup := h.nodup
  refine ⟨?_, ?_, ?_⟩
  · rw [firstChild?_spliced hr hp, h.first]
    cases left <;> simp
  · rw [lastChild?_spliced hr hp, h.last]
    cases right <;> simp
  · intro l d r hsplit
    have hds : d.index < t.size := by
      have hd : d ∈ left ++ c :: right := by simp [hsplit]
      by_cases hdc : d = c
      · rw [hdc]
        exact hc
      · exact h.index_lt (by grind)
    rw [parent?_spliced hr hds, prevSibling?_spliced hr hds, nextSibling?_spliced hr hds]
    rcases append_eq_append_cons hsplit with ⟨m, rfl, hm⟩ | ⟨m, hm, rfl⟩
    · cases m with
      | nil =>
        -- the place is that of the new child
        obtain ⟨rfl, rfl⟩ := List.cons.inj hm
        simp
      | cons b m =>
        obtain ⟨rfl, rfl⟩ := List.cons.inj hm
        obtain ⟨h1, h2, h3⟩ := h.kid (left ++ m) d r (by simp)
        have hdc : d ≠ c := by grind
        have hleft : left.getLast? ≠ some d := getLast?_ne_of_not_mem (by grind)
        rw [if_neg hdc, if_neg hdc, if_neg hdc, if_neg hleft, h1, h2, h3]
        refine ⟨rfl, ?_, rfl⟩
        cases m with
        | nil => simp
        | cons e m =>
          have he : e ≠ d := by grind
          simp [he]
    · obtain ⟨h1, h2, h3⟩ := h.kid l d (m ++ right) (by rw [hm]; simp)
      have hdc : d ≠ c := by grind
      have hright : right.head? ≠ some d := head?_ne_of_not_mem (by grind)
      rw [if_neg hdc, if_neg hdc, if_neg hdc, if_neg hright, h1, h2, h3]
      refine ⟨rfl, rfl, ?_⟩
      cases m with
      | nil => simp [hm]
      | cons e m =>
        have he : left.getLast? ≠ some d := by
          have hlast : left.getLast? = (e :: m).getLast? := by simp [hm, List.getLast?_cons]
          rw [hlast]
          exact getLast?_ne_of_not_mem (by grind)
        rw [if_neg he]
        simp

/-- The child lists of other parents stay when a child is spliced in. -/
theorem spliced_of_ne (h : t.HasKids p (left ++ right))
    (hr : t.Rewrites u (Node.spliced p left.getLast? right.head? c))
    (hls : t.HasKids q ls) (hqp : q ≠ p) (hcl : c ∉ ls) : u.HasKids q ls := by
  have hout : ∀ d ∈ ls, d ∉ left ++ right := fun d hd => hls.not_mem_of_ne h hqp hd
  apply hls.congr
  · exact hr.link_eq Node.firstChild fun m => by simp [Node.spliced, hqp]
  · exact hr.link_eq Node.lastChild fun m => by simp [Node.spliced, hqp]
  · intro d hd
    have hdo := hout d hd
    have hdc : d ≠ c := fun hdc => hcl (hdc ▸ hd)
    have hds := hls.index_lt hd
    have hdp : left.getLast? ≠ some d := getLast?_ne_of_not_mem (by grind)
    have hdn : right.head? ≠ some d := head?_ne_of_not_mem (by grind)
    rw [parent?_spliced hr hds, prevSibling?_spliced hr hds, nextSibling?_spliced hr hds,
      if_neg hdc, if_neg hdc, if_neg hdc, if_neg hdp, if_neg hdn]
    exact ⟨rfl, rfl, rfl⟩

end HasKids

/-! ## What the edits that move nodes achieve -/

/-- The node stands nowhere or among the children of a node. -/
def Placed (t : Tree) (c : NodeId) : Prop :=
  t.Loose c ∨ ∃ p ks, t.HasKids p ks ∧ c ∈ ks

/-- `u` is `t` with `c` taken out of its place. -/
structure TakenOut (t : Tree) (c : NodeId) (u : Tree) : Prop where
  size : u.size = t.size
  payload : ∀ x, u.payload? x = t.payload? x
  loose : u.Loose c
  parent : ∀ x, x ≠ c → u.parent? x = t.parent? x
  kids : ∀ q ls, t.HasKids q ls → u.HasKids q (ls.erase c)
  /-- Only the old parent names other ends. -/
  ends : ∀ x, (∀ ls, t.HasKids x ls → c ∉ ls) →
    u.firstChild? x = t.firstChild? x ∧ u.lastChild? x = t.lastChild? x
  /-- Only the old siblings get other neighbours. -/
  place : ∀ x, x ≠ c → (∀ q ls, t.HasKids q ls → c ∈ ls → x ∉ ls) →
    u.prevSibling? x = t.prevSibling? x ∧ u.nextSibling? x = t.nextSibling? x

/-- `u` is `t` with `c` moved below `p`, between the children `left` and `right`. -/
structure MovedTo (t : Tree) (c p : NodeId) (left right : List NodeId) (u : Tree) : Prop where
  size : u.size = t.size
  payload : ∀ x, u.payload? x = t.payload? x
  parent_self : u.parent? c = some p
  parent : ∀ x, x ≠ c → u.parent? x = t.parent? x
  kids_self : u.HasKids p (left ++ c :: right)
  kids : ∀ q ls, q ≠ p → t.HasKids q ls → u.HasKids q (ls.erase c)
  /-- Only the old and the new parent name other ends. -/
  ends : ∀ x, x ≠ p → (∀ ls, t.HasKids x ls → c ∉ ls) →
    u.firstChild? x = t.firstChild? x ∧ u.lastChild? x = t.lastChild? x
  /-- Only the old and the new siblings get other neighbours. -/
  place : ∀ x, x ≠ c → (∀ q ls, t.HasKids q ls → c ∈ ls ∨ q = p → x ∉ ls) →
    u.prevSibling? x = t.prevSibling? x ∧ u.nextSibling? x = t.nextSibling? x

/-- A number outside the row stands nowhere. -/
theorem Loose.of_size_le {t : Tree} {c : NodeId} (h : t.size ≤ c.index) : t.Loose c := by
  have hnone := node?_eq_none_iff.2 h
  refine ⟨?_, ?_, ?_⟩
  · unfold parent?
    rw [hnone, Option.bind_none]
  · unfold prevSibling?
    rw [hnone, Option.bind_none]
  · unfold nextSibling?
    rw [hnone, Option.bind_none]

/-- A node that stands nowhere is a child of no node. -/
theorem Loose.not_mem {t : Tree} {c q : NodeId} {ls : List NodeId} (h : t.Loose c)
    (hls : t.HasKids q ls) : c ∉ ls := by
  intro hc
  have := h.parent.symm.trans (hls.parent? hc)
  cases this

/-- Taking out a node that stands nowhere changes nothing. -/
theorem Loose.takenOut {t : Tree} {c : NodeId} (h : t.Loose c) : t.TakenOut c t where
  size := rfl
  payload := fun _ => rfl
  loose := h
  parent := fun _ _ => rfl
  kids := by
    intro q ls hls
    rwa [List.erase_of_not_mem (h.not_mem hls)]
  ends := fun _ _ => ⟨rfl, rfl⟩
  place := fun _ _ _ => ⟨rfl, rfl⟩

theorem HasKids.takenOut {t u : Tree} {p c : NodeId} {n : Node} {left right : List NodeId}
    (h : t.HasKids p (left ++ c :: right)) (hn : t.node? c = some n)
    (hr : t.Rewrites u (Node.unlinked c n)) : t.TakenOut c u := by
  obtain ⟨hparent, hprev, hnext⟩ := h.links_of_split hn
  have hcs : c.index < t.size := exists_node?_iff.1 ⟨n, hn⟩
  have hnodup := h.nodup
  refine ⟨hr.size, ?_, ⟨?_, ?_, ?_⟩, ?_, ?_, ?_, ?_⟩
  · exact fun x => hr.payload?_eq fun m => rfl
  · rw [parent?_unlinked hr, if_pos rfl]
  · rw [prevSibling?_unlinked hr hcs, if_pos rfl]
  · rw [nextSibling?_unlinked hr hcs, if_pos rfl]
  · intro x hx
    rw [parent?_unlinked hr, if_neg hx]
  · intro q ls hls
    by_cases hqp : q = p
    · subst hqp
      obtain rfl := h.eq hls
      have hcl : c ∉ left := by grind
      rw [List.erase_append_right _ hcl, List.erase_cons_head]
      exact h.unlinked hn hr
    · rw [List.erase_of_not_mem (h.not_mem_of_ne hls (Ne.symm hqp) (by simp))]
      exact h.unlinked_of_ne hn hr hls hqp
  · intro x hx
    have hxp : n.parent ≠ some x := by
      rw [hparent]
      rintro hpx
      obtain rfl := Option.some.inj hpx
      exact hx _ h (by simp)
    exact ⟨hr.link_eq Node.firstChild fun m => by simp [Node.unlinked, hxp],
      hr.link_eq Node.lastChild fun m => by simp [Node.unlinked, hxp]⟩
  · intro x hx hout
    have hxo : x ∉ left ++ c :: right := hout p _ h (by simp)
    have hxp : n.prevSibling ≠ some x := by
      rw [hprev]
      exact getLast?_ne_of_not_mem (by grind)
    have hxn : n.nextSibling ≠ some x := by
      rw [hnext]
      exact head?_ne_of_not_mem (by grind)
    exact ⟨hr.link_eq Node.prevSibling fun m => by simp [Node.unlinked, hx, hxn],
      hr.link_eq Node.nextSibling fun m => by simp [Node.unlinked, hx, hxp]⟩

/-- Splicing in a node that stands nowhere, after it was taken out of its place. -/
theorem TakenOut.movedTo {t s u : Tree} {c p : NodeId} {left right : List NodeId}
    (h : t.TakenOut c s) (hks : s.HasKids p (left ++ right)) (hp : p.index < s.size)
    (hc : c.index < s.size) (hr : s.Rewrites u (Node.spliced p left.getLast? right.head? c))
    (hold : ∃ ks, t.HasKids p ks ∧ ks.erase c = left ++ right) :
    t.MovedTo c p left right u := by
  have hcl : c ∉ left ++ right := h.loose.not_mem hks
  refine ⟨hr.size.trans h.size, ?_, ?_, ?_, hks.spliced hp hc hcl hr, ?_, ?_, ?_⟩
  · intro x
    rw [hr.payload?_eq fun m => rfl, h.payload]
  · rw [parent?_spliced hr hc, if_pos rfl]
  · intro x hx
    refine (hr.link_eq Node.parent fun m => ?_).trans (h.parent x hx)
    simp [Node.spliced, hx]
  · intro q ls hqp hls
    have hls' := h.kids q ls hls
    exact hks.spliced_of_ne hr hls' hqp (h.loose.not_mem hls')
  · intro x hxp hout
    obtain ⟨hfirst, hlast⟩ := h.ends x hout
    refine ⟨(hr.link_eq Node.firstChild fun m => ?_).trans hfirst,
      (hr.link_eq Node.lastChild fun m => ?_).trans hlast⟩
    · simp [Node.spliced, hxp]
    · simp [Node.spliced, hxp]
  · intro x hx hout
    obtain ⟨ks, hks', hsplit⟩ := hold
    obtain ⟨hprev, hnext⟩ := h.place x hx fun q ls hls hcls => hout q ls hls (Or.inl hcls)
    have hxo : x ∉ left ++ right := by
      intro hmem
      rw [← hsplit] at hmem
      exact hout p ks hks' (Or.inr rfl) (List.mem_of_mem_erase hmem)
    have hxp : left.getLast? ≠ some x := getLast?_ne_of_not_mem (by grind)
    have hxn : right.head? ≠ some x := head?_ne_of_not_mem (by grind)
    refine ⟨(hr.link_eq Node.prevSibling fun m => ?_).trans hprev,
      (hr.link_eq Node.nextSibling fun m => ?_).trans hnext⟩
    · simp [Node.spliced, hx, hxn]
    · simp [Node.spliced, hx, hxp]

/-- A change of one node that keeps it keeps the row. -/
theorem modify_eq_self {t : Tree} {id : NodeId} {f : Node → Node}
    (h : ∀ n, t.node? id = some n → f n = n) : t.modify id f = t := by
  have hnodes : t.nodes.modify id.index f = t.nodes := by
    apply Array.ext_getElem?
    intro i
    rw [Array.getElem?_modify]
    split
    · next hi =>
      subst hi
      cases hn : t.nodes[id.index]? with
      | none => rfl
      | some n => exact congrArg some (h n hn)
    · rfl
  cases t
  simp only [modify] at hnodes ⊢
  congr

/-- Two changes of one node are one change. -/
@[simp] theorem modify_modify (t : Tree) (id : NodeId) (f g : Node → Node) :
    (t.modify id f).modify id g = t.modify id fun n => g (f n) := by
  have hnodes : (t.nodes.modify id.index f).modify id.index g =
      t.nodes.modify id.index fun n => g (f n) := by
    apply Array.ext_getElem?
    intro i
    simp only [Array.getElem?_modify]
    split
    · rw [Option.map_map]
      rfl
    · rfl
  simp only [modify, hnodes]

end Tree

namespace Edit

open DocTree.Tree

variable {t : Tree} {c p sib : NodeId} {ks left right : List NodeId}

/-- Taking out a node that stands nowhere does nothing. -/
theorem detach_eq_ok_of_loose (h : t.Loose c) (hc : c.index < t.size) :
    detach c t = .ok () t := by
  obtain ⟨n, hn⟩ := exists_node?_iff.2 hc
  have hlinks : n.parent = none ∧ n.prevSibling = none ∧ n.nextSibling = none := by
    have h1 := h.parent
    have h2 := h.prev
    have h3 := h.next
    unfold parent? at h1
    rw [hn] at h1
    unfold prevSibling? at h2
    rw [hn] at h2
    unfold nextSibling? at h3
    rw [hn] at h3
    exact ⟨h1, h2, h3⟩
  obtain ⟨payload, parent, first, last, prev, next⟩ := n
  obtain ⟨rfl, rfl, rfl⟩ := hlinks
  have hself := @modify_eq_self t c
    (fun m => { m with parent := none, prevSibling := none, nextSibling := none })
    fun m hm => by rw [← Option.some.inj (hn.symm.trans hm)]
  simp [detach, look, hn, change, hc, hself]

/-- A node that stands somewhere is taken out of its place. -/
theorem exists_detach_of_placed (h : t.Placed c) (hc : c.index < t.size) :
    ∃ u, detach c t = .ok () u ∧ t.TakenOut c u := by
  rcases h with hloose | ⟨p, ks, hks, hmem⟩
  · exact ⟨t, detach_eq_ok_of_loose hloose hc, hloose.takenOut⟩
  · obtain ⟨n, hn⟩ := exists_node?_iff.2 hc
    obtain ⟨left, right, rfl⟩ := List.append_of_mem hmem
    obtain ⟨u, hu, hr⟩ := exists_detach_eq_ok hn (hks.seated hn)
    exact ⟨u, hu, hks.takenOut hn hr⟩

/-- A node that stands somewhere becomes the last child of a node with a child list. -/
theorem exists_append_of_placed (h : t.Placed c) (hc : c.index < t.size)
    (hp : p.index < t.size) (hks : t.HasKids p ks) :
    ∃ u, append p c t = .ok () u ∧ t.MovedTo c p (ks.erase c) [] u := by
  obtain ⟨s, hs, hout⟩ := exists_detach_of_placed h hc
  rw [← hout.size] at hc hp
  have hks' : s.HasKids p (ks.erase c) := hout.kids p ks hks
  have hcl : c ∉ ks.erase c := hout.loose.not_mem hks'
  obtain ⟨u, hu, hr⟩ := exists_append_eq_ok hs hp hc hout.loose.next hks'.last fun a ha => by
    have hmem := List.mem_of_getLast? ha
    exact ⟨hks'.index_lt hmem, fun hac => hcl (hac ▸ hmem)⟩
  refine ⟨u, hu, hout.movedTo ?_ hp hc hr ⟨ks, hks, by simp⟩⟩
  rwa [List.append_nil]

/-- A node that stands somewhere comes to stand before another child. -/
theorem exists_insertBefore_of_placed (h : t.Placed c) (hc : c.index < t.size)
    (hks : t.HasKids p ks) (hsplit : ks.erase c = left ++ sib :: right) :
    ∃ u, insertBefore sib c t = .ok () u ∧ t.MovedTo c p left (sib :: right) u := by
  obtain ⟨s, hs, hout⟩ := exists_detach_of_placed h hc
  rw [← hout.size] at hc
  have hks' : s.HasKids p (left ++ sib :: right) := hsplit ▸ hout.kids p ks hks
  have hcl : c ∉ left ++ sib :: right := hout.loose.not_mem hks'
  have hp : p.index < s.size := @HasKids.parent_index_lt s p sib _ hks' (by simp)
  have hne : sib ≠ c := by grind
  obtain ⟨hparent, hprev, -⟩ := hks'.kid left sib right rfl
  obtain ⟨u, hu, hr⟩ := exists_insertBefore_eq_ok hs hne hp hc hparent hprev fun a ha => by
    have hmem := List.mem_of_getLast? ha
    exact ⟨hks'.index_lt (by simp [hmem]), fun hac => hcl (by simp [← hac, hmem])⟩
  exact ⟨u, hu, hout.movedTo hks' hp hc hr ⟨ks, hks, hsplit⟩⟩

/-- A node that stood nowhere comes behind all children of a node. -/
theorem exists_append_of_loose (h : t.Loose c) (hc : c.index < t.size) (hp : p.index < t.size)
    (hks : t.HasKids p ks) : ∃ u, append p c t = .ok () u ∧ t.MovedTo c p ks [] u := by
  have hmoved := exists_append_of_placed (Or.inl h) hc hp hks
  rwa [List.erase_of_not_mem (h.not_mem hks)] at hmoved

/-- It comes to stand before a child. -/
theorem exists_insertBefore_of_loose (h : t.Loose c) (hc : c.index < t.size)
    (hks : t.HasKids p (left ++ sib :: right)) :
    ∃ u, insertBefore sib c t = .ok () u ∧ t.MovedTo c p left (sib :: right) u :=
  exists_insertBefore_of_placed (Or.inl h) hc hks (List.erase_of_not_mem (h.not_mem hks))

/-- Before a sibling without a parent nothing is put; the node is taken out only. -/
theorem exists_insertBefore_of_parent?_eq_none (h : t.Placed c) (hc : c.index < t.size)
    (hne : sib ≠ c) (hsib : sib.index < t.size) (hparent : t.parent? sib = none) :
    ∃ u, insertBefore sib c t = .ok () u ∧ t.TakenOut c u := by
  obtain ⟨s, hs, hout⟩ := exists_detach_of_placed h hc
  rw [← hout.size] at hsib
  rw [← hout.parent sib hne] at hparent
  exact ⟨s, insertBefore_eq_ok_of_parent?_eq_none hs hne hsib hparent, hout⟩

end Edit

end DocTree
