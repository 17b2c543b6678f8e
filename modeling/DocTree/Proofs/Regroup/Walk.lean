import DocTree.Proofs.Regroup.OneList
import DocTree.Proofs.Regroup.Shape
import DocTree.Proofs.Walked
set_option autoImplicit false

/-!
# Walk: regrouping all lists below some nodes

The walk of `regroupLists` and the rewriting of the trees that the row holds go through
the same nodes in the same order.  `exists_walkFrom` follows them side by side: the visits
of the trees at the front of the pending nodes leave a row that holds the rewritten trees,
and nothing else has changed.
-/

namespace DocTree

open DocTree.Tree Rose

/-! ## Roots and what is below them -/

namespace Rose

/-- The numbers below the roots of several trees. -/
def inside (rs : List Rose) : List NodeId := idsAll (rs.flatMap kids)

theorem inside_cons (id : NodeId) (payload : Payload) (kids rs : List Rose) :
    inside (node id payload kids :: rs) = idsAll kids ++ inside rs := by
  unfold inside
  rw [List.flatMap_cons, idsAll_append]
  rfl

theorem idsAll_perm_inside (rs : List Rose) : (idsAll rs).Perm (rs.map id ++ inside rs) := by
  induction rs with
  | nil => exact List.Perm.nil
  | cons r rs ih =>
    cases r with
    | node id payload kids =>
      rw [idsAll_cons, ids_node, inside_cons, List.map_cons, List.cons_append, List.cons_append]
      refine List.Perm.cons id ((ih.append_left (idsAll kids)).trans ?_)
      rw [← List.append_assoc, ← List.append_assoc]
      exact List.perm_append_comm.append_right _

theorem inside_subset (rs : List Rose) : inside rs ⊆ idsAll rs := fun _ hx =>
  (idsAll_perm_inside rs).mem_iff.2 (List.mem_append_right _ hx)

/-- Where numbers are distinct no root stands below a root. -/
theorem not_mem_inside {rs : List Rose} (h : (idsAll rs).Nodup) {x : NodeId}
    (hx : x ∈ rs.map id) : x ∉ inside rs := fun hinside =>
  (List.nodup_append.1 ((idsAll_perm_inside rs).nodup_iff.1 h)).2.2 x hx x hinside rfl

end Rose

/-! ## What a walk leaves -/

/-- `u` is what a walk through the trees `rs` of `t` leaves. -/
structure Tree.Regrouped (t : Tree) (rs : List Rose) (u : Tree) : Prop where
  holds : ∀ r ∈ (regroupAll t.size rs).1, u.Holds r
  size : u.size = (regroupAll t.size rs).2
  changes : t.Changes u (idsAll rs) (inside rs)
  /-- Where all children of lists are items nothing is changed. -/
  still : (∀ c ∈ containersAll rs, ∀ r ∈ c.kids, r.isItem = true) → u = t

variable {t u v w : Tree} {id : NodeId} {payload : Payload} {kids rs : List Rose}

/-- When the trees below a node are rewritten, the tree at the node is. -/
theorem Tree.Regrouped.holds_node (h : t.Regrouped kids u) (hnode : t.Holds (node id payload kids))
    (hnodup : (node id payload kids).ids.Nodup) :
    u.Holds (node id payload (regroupAll t.size kids).1) := by
  obtain ⟨hid, hkids⟩ := List.nodup_cons.1 hnodup
  have hlt : id.index < t.size := index_lt_of_payload? hnode.payload?
  refine .node id payload _ ((h.changes.payload id hlt).trans hnode.payload?) ?_ h.holds
  rw [map_id_regroupAll]
  exact h.changes.hasKids hnode.hasKids hlt hid fun c hc => not_mem_inside hkids hc

/-- The visit of a node and the walk through the trees then below it change nothing
outside the tree at the node. -/
theorem Tree.Visited.changes_below (hv : t.Visited id payload kids v)
    (hw : v.Regrouped (regroupNode t.size payload kids).1 w)
    (hbound : (regroupNode t.size payload kids).2 ≤ NodeId.bound) :
    t.Changes w (id :: idsAll kids) (idsAll kids) := by
  refine hv.changed.changes.trans hw.changes (fun x hx hlt => ?_) fun x hx hlt => ?_
  · exact List.mem_cons_of_mem _ (mem_of_mem_regroupNode hbound hx hlt)
  · exact mem_of_mem_regroupNode hbound (inside_subset _ hx) hlt

/-- The visit of a node and the walk through the trees then below it rewrite the tree at
the node. -/
theorem Tree.Visited.holds_regroup (hv : t.Visited id payload kids v)
    (hw : v.Regrouped (regroupNode t.size payload kids).1 w)
    (hnode : t.Holds (node id payload kids)) (hnodup : (node id payload kids).ids.Nodup)
    (hbound : (regroupNode t.size payload kids).2 ≤ NodeId.bound) :
    w.Holds (regroup t.size (node id payload kids)).1 := by
  obtain ⟨hid, hkids⟩ := List.nodup_cons.1 hnodup
  have hfresh : id ∉ idsAll (regroupNode t.size payload kids).1 := fun hmem =>
    hid (mem_of_mem_regroupNode hbound hmem (hnode.index_lt id List.mem_cons_self))
  have hdistinct := nodup_idsAll_regroupNode
    (fun x hx => hnode.index_lt x (List.mem_cons_of_mem _ hx)) hbound hkids
  rw [regroup_node]
  unfold regroupBelow
  rw [← hv.size]
  exact hw.holds_node hv.changed.holds (List.nodup_cons.2 ⟨hfresh, hdistinct⟩)

/-- A tree beside a node is held after changes at that node and below it. -/
theorem Tree.Changes.holds_beside (h : t.Changes u (id :: idsAll kids) (idsAll kids))
    (hnodup : (idsAll (node id payload kids :: rs)).Nodup) {r : Rose} (hr : r ∈ rs)
    (hholds : t.Holds r) : u.Holds r := by
  rw [idsAll_cons] at hnodup
  have hdisj := (List.nodup_append.1 hnodup).2.2
  have hout : ∀ x ∈ r.ids, x ∉ (node id payload kids).ids := fun x hx hmem =>
    hdisj x hmem x (mem_idsAll.2 ⟨r, hr, hx⟩) rfl
  exact h.holds hholds hout fun x hx hmem =>
    hout x (r.idsAll_kids_subset_ids hx) (List.mem_cons_of_mem _ hmem)

/-- The numbers of a rewritten tree are not those of the trees to its right. -/
theorem Rose.not_mem_of_mem_regroup {next : Nat} {r : Rose}
    (hnodup : (idsAll (r :: rs)).Nodup) (hold : ∀ x ∈ idsAll rs, x.index < next)
    (hbound : (regroup next r).2 ≤ NodeId.bound) :
    ∀ x ∈ (regroup next r).1.ids, x ∉ idsAll rs := by
  intro x hx hmem
  rw [idsAll_cons] at hnodup
  have hr := mem_of_mem_regroup hbound hx (hold x hmem)
  exact (List.nodup_append.1 hnodup).2.2 x hr x hmem rfl

/-- The walk through a node, the trees below it and those to its right. -/
theorem Tree.Regrouped.cons (h : ∀ r ∈ node id payload kids :: rs, t.Holds r)
    (hnodup : (idsAll (node id payload kids :: rs)).Nodup)
    (hbound : (regroup t.size (node id payload kids)).2 ≤ NodeId.bound)
    (hv : t.Visited id payload kids v)
    (hw : v.Regrouped (regroupNode t.size payload kids).1 w) (hu : w.Regrouped rs u) :
    t.Regrouped (node id payload kids :: rs) u := by
  have hnode := h _ List.mem_cons_self
  have hids := (List.nodup_append.1 hnodup).1
  have hold : ∀ x ∈ idsAll rs, x.index < t.size := by
    intro x hx
    obtain ⟨r, hr, hxr⟩ := mem_idsAll.1 hx
    exact (h r (List.mem_cons_of_mem _ hr)).index_lt x hxr
  have hwsize : w.size = (regroup t.size (node id payload kids)).2 := by
    rw [hw.size, hv.size, regroup_node]
  have hmade : (regroupNode t.size payload kids).2 ≤ NodeId.bound := by
    have := hw.changes.size
    rw [hv.size, hwsize] at this
    exact Nat.le_trans this hbound
  have hbelow := hv.changes_below hw hmade
  refine ⟨?_, ?_, ?_, ?_⟩
  · rw [regroupAll_cons, ← hwsize]
    intro r hr
    rcases List.mem_cons.1 hr with rfl | hr
    · -- the walk to its right leaves the tree at the node alone
      have hout := not_mem_of_mem_regroup hnodup hold hbound
      apply hu.changes.holds (hv.holds_regroup hw hnode hids hmade) hout
      intro x hx hmem
      exact hout x (idsAll_kids_subset_ids _ hx) (inside_subset rs hmem)
    · exact hu.holds r hr
  · rw [regroupAll_cons, ← hwsize]
    exact hu.size
  · refine (hbelow.mono (fun x hx _ => ?_) fun x hx _ => ?_).trans hu.changes (fun x hx _ => ?_)
      fun x hx _ => ?_
    · exact List.mem_append_left _ hx
    · rw [inside_cons]
      exact List.mem_append_left _ hx
    · exact List.mem_append_right _ hx
    · rw [inside_cons]
      exact List.mem_append_right _ hx
  · intro hall
    rw [containersAll_cons, containers_node] at hall
    have hvt : v = t := hv.still fun c hc => hall c (by simp [hc])
    have hwv : w = v := by
      apply hw.still
      rw [containersAll_regroupNode]
      exact fun c hc => hall c (by simp [hc])
    have huw : u = w := hu.still fun c hc => hall c (by simp [hc])
    rw [huw, hwv, hvt]

/-! ## The walk -/

/-- What is noted at a node, below it and to its right. -/
theorem noted_node_cons (next : Nat) (id : NodeId) (payload : Payload) (kids rs : List Rose)
    (s : Log × Tally) :
    noted next (containersAll (node id payload kids :: rs)) s =
      noted (regroup next (node id payload kids)).2 (containersAll rs)
        (noted (regroupNode next payload kids).2
          (containersAll (regroupNode next payload kids).1)
          (noted next (containerAt id payload kids) s)) := by
  rw [containersAll_cons, containers_node, noted_append, noted_append, regroup_node,
    regroupAll_snd, containersAll_regroupNode, regroupNode_snd_eq next id, List.countP_append,
    Nat.add_assoc]

/-- A walk over held trees regroups them all and goes on behind them. -/
theorem exists_walkFrom (next : Nat) (rs : List Rose) : ∀ t : Tree, t.size = next →
    (∀ r ∈ rs, t.Holds r) → (idsAll rs).Nodup → (regroupAll next rs).2 ≤ NodeId.bound →
    ∃ u, (∀ steps visited pending s, visited + (idsAll rs).length ≤ t.size →
        walkFrom regroupList (steps + (idsAll (regroupAll next rs).1).length) visited
            (rs.map Rose.id ++ pending) (t, s) =
          walkFrom regroupList steps (visited + (idsAll (regroupAll next rs).1).length) pending
            (u, noted next (containersAll rs) s)) ∧
      t.Regrouped rs u := by
  induction next, rs using regroupAll_induct with
  | nil next =>
    rintro t rfl _ _ _
    refine ⟨t, fun steps visited pending s _ => ?_, ?_, ?_, Changes.refl t _ _, fun _ => rfl⟩
    · rw [regroupAll_nil, containersAll_nil, noted_nil]
      rfl
    · rw [regroupAll_nil]
      exact fun r hr => absurd hr List.not_mem_nil
    · rw [regroupAll_nil]
  | cons next id payload kids rs ihkids ihrs =>
    rintro t rfl h hnodup hbound
    have hnode := h _ List.mem_cons_self
    have hids := (List.nodup_append.1 hnodup).1
    have hrest := (List.nodup_append.1 hnodup).2.1
    have hold : ∀ x ∈ idsAll kids, x.index < t.size := fun x hx =>
      hnode.index_lt x (List.mem_cons_of_mem _ hx)
    have hsnd := congrArg Prod.snd (regroup_node t.size id payload kids)
    have hnext := le_regroupBelow t.size payload kids
    have hlast := le_regroupAll (regroup t.size (node id payload kids)).2 rs
    rw [regroupAll_cons] at hbound ⊢
    dsimp only at hbound hsnd ⊢
    have hmade : (regroupNode t.size payload kids).2 ≤ NodeId.bound := by omega
    have hbelow : (regroupBelow t.size payload kids).2 ≤ NodeId.bound := by omega
    -- the visit, the walk below the node, and the walk to its right
    obtain ⟨v, hvrun, hv⟩ := exists_regroupList hnode hids hmade
    obtain ⟨w, hwrun, hw⟩ := ihkids v hv.size hv.changed.holds.kid
      (nodup_idsAll_regroupNode hold hmade (List.nodup_cons.1 hids).2) hbelow
    have hwsize : w.size = (regroup t.size (node id payload kids)).2 := by
      rw [hw.size, hv.size, hsnd]
    obtain ⟨u, hurun, hu⟩ := ihrs w hwsize
      (fun r hr => (hv.changes_below hw hmade).holds_beside hnodup hr
        (h r (List.mem_cons_of_mem _ hr))) hrest (by omega)
    refine ⟨u, fun steps visited pending s hvisited => ?_, .cons h hnodup (by omega) hv hw hu⟩
    -- no more nodes are visited than there are
    have hgrown := length_idsAll_regroupNode t.size payload kids
    have hgrown' := length_idsAll_regroupBelow hold hbelow
    rw [idsAll_cons, ids_node, List.length_append, List.length_cons] at hvisited
    rw [idsAll_cons, List.length_append]
    have hlength : (regroup t.size (node id payload kids)).1.ids.length =
        (idsAll (regroupBelow t.size payload kids).1).length + 1 := by
      rw [regroup_node, ids_node, List.length_cons]
    rw [hlength]
    generalize hlen : (idsAll (regroupBelow t.size payload kids).1).length = below at hgrown' ⊢
    unfold regroupBelow at hlen
    rw [hlen] at hwrun
    generalize (idsAll (regroupAll (regroup t.size (node id payload kids)).2 rs).1).length =
      right at hurun ⊢
    have hsteps : steps + (below + 1 + right) = steps + right + below + 1 := by omega
    have hvisits : visited + (below + 1 + right) = visited + 1 + below + right := by omega
    rw [hsteps, hvisits, noted_node_cons, List.map_cons, List.cons_append]
    change walkFrom regroupList _ visited (id :: (rs.map Rose.id ++ pending)) (t, s) = _
    rw [walkFrom_succ_cons (by omega) (hvrun s), hv.changed.holds.hasKids.children_eq,
      hwrun _ _ _ _ (by rw [hv.size]; omega), hurun _ _ _ _ (by rw [hwsize]; omega)]

end DocTree
