import DocTree.Proofs.Rose
import DocTree.Proofs.WellLinked
set_option autoImplicit false

/-!
# Changes: what a series of edits leaves alone

`t.Changes u hosts guests` says that `u` has grown out of `t`, that payloads stayed, and
that among the nodes of `t` only the `hosts` may have got other children and only the
`guests` another place.  Nothing is said of the nodes that were added.
-/

namespace DocTree

namespace Tree

/-- `u` has grown out of `t` by changes of the child lists of `hosts` and of the places of
`guests`. -/
structure Changes (t u : Tree) (hosts guests : List NodeId) : Prop where
  size : t.size ≤ u.size
  payload : ∀ x, x.index < t.size → u.payload? x = t.payload? x
  ends : ∀ x, x.index < t.size → x ∉ hosts →
    u.firstChild? x = t.firstChild? x ∧ u.lastChild? x = t.lastChild? x
  place : ∀ x, x.index < t.size → x ∉ guests → u.parent? x = t.parent? x ∧
    u.prevSibling? x = t.prevSibling? x ∧ u.nextSibling? x = t.nextSibling? x

namespace Changes

variable {t s u : Tree} {hosts hosts' guests guests' : List NodeId}

theorem refl (t : Tree) (hosts guests : List NodeId) : t.Changes t hosts guests where
  size := Nat.le_refl _
  payload := fun _ _ => rfl
  ends := fun _ _ _ => ⟨rfl, rfl⟩
  place := fun _ _ _ => ⟨rfl, rfl, rfl⟩

/-- Further changes may touch what was touched before and what was added. -/
theorem trans (h : t.Changes s hosts guests) (h' : s.Changes u hosts' guests')
    (hhosts : ∀ x ∈ hosts', x.index < t.size → x ∈ hosts)
    (hguests : ∀ x ∈ guests', x.index < t.size → x ∈ guests) : t.Changes u hosts guests where
  size := Nat.le_trans h.size h'.size
  payload := by
    intro x hx
    rw [h'.payload x (Nat.lt_of_lt_of_le hx h.size), h.payload x hx]
  ends := by
    intro x hx hout
    obtain ⟨hfirst, hlast⟩ := h.ends x hx hout
    obtain ⟨hfirst', hlast'⟩ := h'.ends x (Nat.lt_of_lt_of_le hx h.size)
      fun hmem => hout (hhosts x hmem hx)
    exact ⟨hfirst'.trans hfirst, hlast'.trans hlast⟩
  place := by
    intro x hx hout
    obtain ⟨hparent, hprev, hnext⟩ := h.place x hx hout
    obtain ⟨hparent', hprev', hnext'⟩ := h'.place x (Nat.lt_of_lt_of_le hx h.size)
      fun hmem => hout (hguests x hmem hx)
    exact ⟨hparent'.trans hparent, hprev'.trans hprev, hnext'.trans hnext⟩

theorem mono (h : t.Changes u hosts' guests')
    (hhosts : ∀ x ∈ hosts', x.index < t.size → x ∈ hosts)
    (hguests : ∀ x ∈ guests', x.index < t.size → x ∈ guests) : t.Changes u hosts guests :=
  (refl t hosts guests).trans h hhosts hguests

/-! ## What stays -/

/-- The child list of a node that is no host stays if no child is a guest. -/
theorem hasKids (h : t.Changes u hosts guests) {p : NodeId} {ks : List NodeId}
    (hks : t.HasKids p ks) (hp : p.index < t.size) (hhost : p ∉ hosts)
    (hguest : ∀ c ∈ ks, c ∉ guests) : u.HasKids p ks := by
  obtain ⟨hfirst, hlast⟩ := h.ends p hp hhost
  exact hks.congr hfirst hlast fun c hc => h.place c (hks.index_lt hc) (hguest c hc)

/-- A tree is still held if none of its nodes is a host and none below its root is a
guest. -/
theorem holds (h : t.Changes u hosts guests) {r : Rose} (hr : t.Holds r)
    (hhost : ∀ x ∈ r.ids, x ∉ hosts) (hguest : ∀ x ∈ Rose.idsAll r.kids, x ∉ guests) :
    u.Holds r := by
  apply hr.imp (fun x hx => h.payload x (hr.index_lt x hx))
  intro x hx ks hks
  obtain ⟨ls, hls, hbelow⟩ := hr.hasKids_of_mem x hx
  obtain rfl := hls.eq hks
  exact h.hasKids hks (hr.index_lt x hx) (hhost x hx) fun c hc => hguest c (hbelow c hc)

/-! ## What the edits change -/

variable {c p q : NodeId} {left right ks ls : List NodeId}

/-- A node that is made changes no other. -/
theorem create (t : Tree) (payload : Payload) : t.Changes (t.create payload).2 [] [] := by
  have hlinks := SameLinks.create t payload
  refine ⟨?_, fun x hx => ?_, fun x _ _ => ⟨hlinks.first x, hlinks.last x⟩,
    fun x _ _ => ⟨hlinks.parent x, hlinks.prev x, hlinks.next x⟩⟩
  · rw [size_create]
    exact Nat.le_succ _
  · unfold payload?
    rw [node?_create, if_neg (Nat.ne_of_lt hx)]

/-- A node that is moved changes the child lists of its old and its new parent and the
places of their children. -/
theorem of_movedTo (h : t.MovedTo c p left right u) (hp : p ∈ hosts) (hc : c ∈ guests)
    (hold : ∀ q ls, t.HasKids q ls → c ∈ ls → q ∈ hosts)
    (hnear : ∀ q ls, t.HasKids q ls → c ∈ ls ∨ q = p → ∀ x ∈ ls, x ∈ guests) :
    t.Changes u hosts guests where
  size := Nat.le_of_eq h.size.symm
  payload := fun x _ => h.payload x
  ends := by
    intro x _ hout
    apply h.ends x (fun hxp => hout (hxp ▸ hp))
    intro ls hls hmem
    exact hout (hold x ls hls hmem)
  place := by
    intro x _ hout
    have hxc : x ≠ c := fun hxc => hout (hxc ▸ hc)
    refine ⟨h.parent x hxc, h.place x hxc fun q ls hls hmem hx => ?_⟩
    exact hout (hnear q ls hls hmem x hx)

/-- A child of `q` that is moved below `p`. -/
theorem of_movedTo_of_mem (h : t.MovedTo c p left right u) (hls : t.HasKids q ls) (hc : c ∈ ls)
    (hks : t.HasKids p ks) : t.Changes u [q, p] (ls ++ ks) := by
  have hold : ∀ x ms, t.HasKids x ms → c ∈ ms → x = q := by
    intro x ms hms hcm
    by_contra hxq
    exact hls.not_mem_of_ne hms (Ne.symm hxq) hc hcm
  refine of_movedTo h (by simp) (List.mem_append_left _ hc) (fun x ms hms hcm => ?_)
    fun x ms hms hcm y hy => ?_
  · rw [hold x ms hms hcm]
    exact List.mem_cons_self
  · rcases hcm with hcm | rfl
    · obtain rfl := hold x ms hms hcm
      obtain rfl := hls.eq hms
      exact List.mem_append_left _ hy
    · obtain rfl := hks.eq hms
      exact List.mem_append_right _ hy

/-- A node that stands nowhere and is moved below `p`. -/
theorem of_movedTo_of_loose (h : t.MovedTo c p left right u) (hloose : t.Loose c)
    (hks : t.HasKids p ks) : t.Changes u [p] (c :: ks) := by
  refine of_movedTo h List.mem_cons_self List.mem_cons_self
    (fun x ms hms hcm => absurd hcm (hloose.not_mem hms)) fun x ms hms hcm y hy => ?_
  rcases hcm with hcm | rfl
  · exact absurd hcm (hloose.not_mem hms)
  · obtain rfl := hks.eq hms
    exact List.mem_cons_of_mem _ hy

end Changes

/-! ## Trees beside a move -/

variable {t u : Tree} {c p q : NodeId} {left right ls : List NodeId} {r : Rose}

/-- A held tree stays if it contains neither the new parent of the moved node nor its old
one. -/
theorem MovedTo.holds (h : t.MovedTo c p left right u) (hls : t.HasKids q ls) (hc : c ∈ ls)
    (hr : t.Holds r) (hp : p ∉ r.ids) (hq : q ∉ r.ids) : u.Holds r := by
  apply hr.imp (fun x _ => h.payload x)
  intro x hx ks hks
  have hkids := h.kids x ks (fun hxp => hp (hxp ▸ hx)) hks
  rwa [List.erase_of_not_mem (hls.not_mem_of_ne hks (fun hqx => hq (hqx ▸ hx)) hc)] at hkids

theorem MovedTo.holds_of_loose (h : t.MovedTo c p left right u) (hloose : t.Loose c)
    (hr : t.Holds r) (hp : p ∉ r.ids) : u.Holds r := by
  apply hr.imp (fun x _ => h.payload x)
  intro x hx ks hks
  have hkids := h.kids x ks (fun hxp => hp (hxp ▸ hx)) hks
  rwa [List.erase_of_not_mem (hloose.not_mem hks)] at hkids

end Tree

end DocTree
