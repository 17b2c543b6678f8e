import DocTree.Proofs.Regroup.Attached
set_option autoImplicit false

/-!
# OneList: regrouping one list in a row of nodes

Where a row holds a tree, `regroupList` leaves a row that holds the tree with the children
of its root regrouped (`exists_regroupList`).  Halfway the row holds the list with the
groups that are finished, the item that is being filled, and the children that are still
to be looked at.
-/

namespace DocTree

open DocTree.Tree Rose

variable {t u : Tree} {list : NodeId} {payload : Payload} {done rest : List Rose}
  {item child : Rose}

/-! ## What is done to one list -/

/-- `u` is `t` with the children `before` of a list regrouped as `after`. -/
structure Tree.ListChanged (t : Tree) (list : NodeId) (payload : Payload) (before after : List Rose)
    (u : Tree) : Prop where
  holds : u.Holds (node list payload after)
  changes : t.Changes u (list :: idsAll before) (idsAll before)

theorem Tree.ListChanged.refl {kids : List Rose} (h : t.Holds (node list payload kids)) :
    t.ListChanged list payload kids kids t where
  holds := h
  changes := Changes.refl t _ _

/-- Halfway there are the old nodes and those that were added. -/
theorem Tree.ListChanged.trans {v : Tree} {before between after : List Rose}
    (h : t.ListChanged list payload before between v)
    (h' : v.ListChanged list payload between after u)
    (hold : ∀ x ∈ idsAll between, x.index < t.size → x ∈ idsAll before) :
    t.ListChanged list payload before after u where
  holds := h'.holds
  changes := by
    refine h.changes.trans h'.changes (fun x hx hlt => ?_) hold
    rcases List.mem_cons.1 hx with rfl | hx
    · exact List.mem_cons_self
    · exact List.mem_cons_of_mem _ (hold x hx hlt)

/-! ## One stray child -/

/-- The numbers of one of several trees, of the trees below it and of the others. -/
theorem Rose.idsAll_middle_perm (done rest kids : List Rose) (id : NodeId) (payload : Payload) :
    (idsAll (done ++ node id payload kids :: rest)).Perm
      (id :: idsAll (done ++ kids ++ rest)) := by
  rw [idsAll_append, idsAll_cons, ids_node, List.cons_append, idsAll_append, idsAll_append,
    List.append_assoc]
  exact List.perm_middle

theorem erase_middle {left right : List NodeId} {c : NodeId} (h : (left ++ c :: right).Nodup) :
    (left ++ c :: right).erase c = left ++ right := by
  have hc : c ∉ left := fun hc => (List.nodup_append.1 h).2.2 c hc c List.mem_cons_self rfl
  rw [List.erase_append_right _ hc, List.erase_cons_head]

section Append

variable {id : NodeId} {pay : Payload} {kids : List Rose}

/-- A list from which a child was moved to the end of the item before it. -/
theorem Tree.MovedTo.holds_append
    (hmove : t.MovedTo child.id id (kids.map Rose.id) [] u)
    (h : t.Holds (node list payload (done ++ node id pay kids :: child :: rest)))
    (hnodup : (node list payload (done ++ node id pay kids :: child :: rest)).ids.Nodup) :
    u.Holds (node list payload (done ++ (node id pay kids).adopt [child] :: rest)) := by
  have hitem : t.Holds (node id pay kids) := h.kid _ (by simp)
  have hchild : child.id ∈ (done ++ node id pay kids :: child :: rest).map Rose.id := by simp
  -- neither the list nor the item stands among the other nodes
  obtain ⟨hlist, hrest⟩ := List.nodup_cons.1
    (((idsAll_middle_perm done (child :: rest) kids id pay).cons list).nodup_iff.1 hnodup)
  have hid := (List.nodup_cons.1 hrest).1
  have hbeside : ∀ r ∈ done ++ kids ++ child :: rest, t.Holds r → u.Holds r := by
    intro r hr hholds
    have hmem : ∀ x ∈ r.ids, x ∈ idsAll (done ++ kids ++ child :: rest) := fun x hx =>
      mem_idsAll.2 ⟨r, hr, hx⟩
    exact hmove.holds h.hasKids hchild hholds (fun hx => hid (hmem id hx))
      fun hx => hlist (List.mem_cons_of_mem _ (hmem list hx))
  have hfilled : u.Holds ((node id pay kids).adopt [child]) := by
    refine .node _ _ _ ((hmove.payload id).trans hitem.payload?) ?_ fun k hk => ?_
    · rw [List.map_append]
      exact hmove.kids_self
    · rcases List.mem_append.1 hk with hk | hk
      · have hk : k ∈ kids := hk
        exact hbeside k (by simp [hk]) (hitem.kid k hk)
      · obtain rfl := List.mem_singleton.1 hk
        exact hbeside k (by simp) (h.kid k (by simp))
  refine .node _ _ _ ((hmove.payload list).trans h.payload?) ?_ fun k hk => ?_
  · -- the child is no longer a child of the list
    have hsplit : (done ++ node id pay kids :: child :: rest).map Rose.id =
        (done.map Rose.id ++ [id]) ++ child.id :: rest.map Rose.id := by
      simp [Rose.id]
    have hkids := hmove.kids list _ (fun hx => hlist (hx ▸ List.mem_cons_self)) h.hasKids
    have hdistinct := h.hasKids.nodup
    rw [hsplit] at hkids hdistinct
    rw [erase_middle hdistinct] at hkids
    simpa [Rose.id, adopt] using hkids
  · rcases List.mem_append.1 hk with hk | hk
    · exact hbeside k (by simp [hk]) (h.kid k (by simp [hk]))
    · rcases List.mem_cons.1 hk with rfl | hk
      · exact hfilled
      · exact hbeside k (by simp [hk]) (h.kid k (by simp [hk]))

end Append

/-- The next stray child is appended to the item before it. -/
theorem Edit.exists_append_stray
    (h : t.Holds (node list payload (done ++ item :: child :: rest)))
    (hnodup : (node list payload (done ++ item :: child :: rest)).ids.Nodup) :
    ∃ u, Edit.append item.id child.id t = .ok () u ∧ u.size = t.size ∧
      t.ListChanged list payload (done ++ item :: child :: rest)
        (done ++ item.adopt [child] :: rest) u := by
  cases item with
  | node id pay kids =>
    have hitem : t.Holds (node id pay kids) := h.kid _ (by simp)
    have hlist := h.hasKids
    have hid : id ∈ (done ++ node id pay kids :: child :: rest).map Rose.id := by simp [Rose.id]
    have hchild : child.id ∈ (done ++ node id pay kids :: child :: rest).map Rose.id := by simp
    have hroots := map_id_subset_idsAll (done ++ node id pay kids :: child :: rest)
    have hne : list ≠ id := fun hx => (List.nodup_cons.1 hnodup).1 (hx ▸ hroots hid)
    have hnot : child.id ∉ kids.map Rose.id := hlist.not_mem_of_ne hitem.hasKids hne hchild
    obtain ⟨u, hu, hmove⟩ := exists_append_of_placed (Or.inr ⟨list, _, hlist, hchild⟩)
      (hlist.index_lt hchild) (index_lt_of_payload? hitem.payload?) hitem.hasKids
    rw [List.erase_of_not_mem hnot] at hmove
    refine ⟨u, hu, hmove.size, hmove.holds_append h hnodup, ?_⟩
    refine (Changes.of_movedTo_of_mem hmove hlist hchild hitem.hasKids).mono
      (fun x hx _ => ?_) fun x hx _ => ?_
    · rcases List.mem_cons.1 hx with rfl | hx
      · exact List.mem_cons_self
      · obtain rfl := List.mem_singleton.1 hx
        exact List.mem_cons_of_mem _ (hroots hid)
    · rcases List.mem_append.1 hx with hx | hx
      · exact hroots hx
      · have := map_id_subset_idsAll kids hx
        simp [this]

/-! ## The item that is made -/

/-- The row with an item that was made and stands nowhere still holds what it held. -/
theorem Tree.Holds.create {r : Rose} (h : t.Holds r) (payload : Payload) :
    (t.create payload).2.Holds r :=
  (Changes.create t payload).holds h (fun _ _ => List.not_mem_nil) fun _ _ => List.not_mem_nil

theorem Tree.Holds.ofNat_size_not_mem {r : Rose} (h : t.Holds r) (hsize : t.size < NodeId.bound) :
    NodeId.ofNat t.size ∉ r.ids := by
  intro hmem
  have hlt := h.index_lt _ hmem
  rw [NodeId.index_ofNat hsize] at hlt
  exact Nat.lt_irrefl _ hlt

/-- A new item is put before the first child of a list. -/
theorem Edit.exists_insertBefore_made (h : t.Holds (node list payload (child :: rest)))
    (hnodup : (node list payload (child :: rest)).ids.Nodup) (hsize : t.size < NodeId.bound) :
    ∃ u, Edit.insertBefore child.id (.ofNat t.size) (t.create itemPayload).2 = .ok () u ∧
      u.size = t.size + 1 ∧ t.ListChanged list payload (child :: rest)
        (node (.ofNat t.size) itemPayload [] :: child :: rest) u := by
  have hindex : (NodeId.ofNat t.size).index = t.size := NodeId.index_ofNat hsize
  have hout : t.size ≤ (NodeId.ofNat t.size).index := Nat.le_of_eq hindex.symm
  have hlinks := SameLinks.create t itemPayload
  have hsizes := size_create t itemPayload
  have hholds := h.create itemPayload
  have hloose := hlinks.loose (.of_size_le hout)
  have hempty := hlinks.hasKids (hasKids_nil_of_size_le hout)
  have hkids : (t.create itemPayload).2.HasKids list ([] ++ child.id :: rest.map Rose.id) :=
    hholds.hasKids
  obtain ⟨u, hu, hmove⟩ := exists_insertBefore_of_loose hloose
    (by rw [hsizes, hindex]; exact Nat.lt_succ_self _) hkids
  have hlist : list ∉ idsAll (child :: rest) := (List.nodup_cons.1 hnodup).1
  have hne : NodeId.ofNat t.size ≠ list := fun hx =>
    h.ofNat_size_not_mem hsize (hx ▸ List.mem_cons_self)
  have hpayload : (t.create itemPayload).2.payload? (.ofNat t.size) = some itemPayload := by
    unfold payload?
    rw [node?_create, if_pos hindex]
    rfl
  refine ⟨u, hu, hmove.size.trans hsizes, ?_, ?_⟩
  · refine .node _ _ _ ((hmove.payload list).trans hholds.payload?) hmove.kids_self fun k hk => ?_
    rcases List.mem_cons.1 hk with rfl | hk
    · exact .node _ _ _ ((hmove.payload _).trans hpayload) (hmove.kids _ _ hne hempty)
        fun k hk => absurd hk List.not_mem_nil
    · exact hmove.holds_of_loose hloose (hholds.kid k hk) fun hl =>
        hlist (mem_idsAll.2 ⟨k, hk, hl⟩)
  · refine ((Changes.create t itemPayload).mono (by simp) (by simp)).trans
      (Changes.of_movedTo_of_loose hmove hloose hholds.hasKids) (fun x hx _ => ?_)
      fun x hx hlt => ?_
    · rw [List.mem_singleton.1 hx]
      exact List.mem_cons_self
    · rcases List.mem_cons.1 hx with rfl | hx
      · omega
      · exact map_id_subset_idsAll _ hx

/-! ## The steps of the pass -/

/-- What is noted where `lists` lists are met, `made` items made and `events` reported. -/
def account (lists made : Nat) (events : List Event) (s : Log × Tally) : Log × Tally :=
  (s.1 ++ events.toArray, ⟨s.2.lists + lists, s.2.moved + events.length, s.2.created + made⟩)

@[simp] theorem account_nothing (s : Log × Tally) : account 0 0 [] s = s := by
  simp [account]

theorem account_account (lists lists' made made' : Nat) (events events' : List Event)
    (s : Log × Tally) :
    account lists' made' events' (account lists made events s) =
      account (lists + lists') (made + made') (events ++ events') s := by
  simp [account, Nat.add_assoc]

variable {i c : NodeId} {item? : Option NodeId} {cs : List NodeId} {s : Log × Tally}

theorem gatherStrays_cons_of_isItem (h : t.isItem c = true) :
    gatherStrays list item? (c :: cs) (t, s) = gatherStrays list (some c) cs (t, s) := by
  simp [gatherStrays, h]

theorem gatherStrays_cons_of_append (h : t.isItem c = false)
    (hu : Edit.append i c t = .ok () u) :
    gatherStrays list (some i) (c :: cs) (t, s) =
      gatherStrays list (some i) cs (u, account 0 0 [.moved c list i] s) := by
  simp [gatherStrays, h, itemFor, hu, account]

theorem itemFor_none
    (hu : Edit.insertBefore c (.ofNat t.size) (t.create itemPayload).2 = .ok () u) :
    itemFor c none (t, s) = .ok (.ofNat t.size) (u, account 0 1 [] s) := by
  have hmade : Edit.createHtml itemTag t = .ok (.ofNat t.size) (t.create itemPayload).2 := rfl
  simp [itemFor, hmade, hu, account]

theorem gatherStrays_cons_of_insertBefore (h : t.isItem c = false)
    (hu : Edit.insertBefore c (.ofNat t.size) (t.create itemPayload).2 = .ok () u)
    (hc : u.isItem c = false) :
    gatherStrays list none (c :: cs) (t, s) =
      gatherStrays list (some (.ofNat t.size)) (c :: cs) (u, account 0 1 [] s) := by
  have hsome : ∀ s, itemFor c (some (.ofNat t.size)) s = .ok (.ofNat t.size) s := fun _ => rfl
  simp [gatherStrays, h, hc, itemFor_none hu, hsome]

/-! ## The children of a list -/

theorem Rose.gather_cons_of_isItem (h : child.isItem = true) (item : Rose) (rest : List Rose) :
    gather (item :: child :: rest) = item :: gather (child :: rest) := by
  rw [gather_cons, strays_cons_of_isItem h, fromItem_cons_of_isItem h, adopt_nil]

theorem Rose.gather_cons_of_not_isItem (h : child.isItem = false) (item : Rose)
    (rest : List Rose) :
    gather (item :: child :: rest) = gather (item.adopt [child] :: rest) := by
  rw [gather_cons, gather_cons, strays_cons_of_not_isItem h, fromItem_cons_of_not_isItem h]
  simp [adopt, Rose.id, Rose.payload, Rose.kids]

theorem Rose.gatherMoves_cons_of_isItem (h : child.isItem = true) (item : Rose)
    (rest : List Rose) :
    gatherMoves list (item :: child :: rest) = gatherMoves list (child :: rest) := by
  rw [gatherMoves_cons, strays_cons_of_isItem h, fromItem_cons_of_isItem h]
  rfl

theorem Rose.gatherMoves_cons_of_not_isItem (h : child.isItem = false) (item : Rose)
    (rest : List Rose) :
    gatherMoves list (item :: child :: rest) =
      .moved child.id list item.id :: gatherMoves list (item.adopt [child] :: rest) := by
  rw [gatherMoves_cons, gatherMoves_cons, strays_cons_of_not_isItem h,
    fromItem_cons_of_not_isItem h]
  rfl

/-- Behind an item the remaining children are gathered into items. -/
theorem exists_gatherStrays_behind (rest done : List Rose) (item : Rose)
    (h : t.Holds (node list payload (done ++ item :: rest)))
    (hnodup : (node list payload (done ++ item :: rest)).ids.Nodup) :
    ∃ u, (∀ s, gatherStrays list (some item.id) (rest.map Rose.id) (t, s) =
        .ok () (u, account 0 0 (gatherMoves list (item :: rest)) s)) ∧ u.size = t.size ∧
      t.ListChanged list payload (done ++ item :: rest) (done ++ gather (item :: rest)) u ∧
      ((∀ r ∈ rest, r.isItem = true) → u = t) := by
  induction rest generalizing t done item with
  | nil =>
    have hmoves : gatherMoves list [item] = [] := by
      rw [gatherMoves_cons, gatherMoves.eq_def]
      rfl
    have hgather : gather [item] = [item] := by
      rw [gather_cons]
      exact congrArg₂ List.cons (adopt_nil item) gather_nil
    rw [hmoves, hgather]
    refine ⟨t, fun s => ?_, rfl, .refl h, fun _ => rfl⟩
    rw [account_nothing]
    rfl
  | cons child rest ih =>
    have hchild : t.Holds child := h.kid _ (by simp)
    cases hitem : child.isItem with
    | true =>
      -- the item is done, and the child is the next one
      have hsplit : done ++ item :: child :: rest = (done ++ [item]) ++ child :: rest := by simp
      rw [hsplit] at h hnodup ⊢
      obtain ⟨u, hu, hsize, hchanged, hstill⟩ := ih (done ++ [item]) child h hnodup
      refine ⟨u, fun s => ?_, hsize, ?_, fun hall => ?_⟩
      · rw [List.map_cons, gatherStrays_cons_of_isItem (hchild.isItem_eq.trans hitem), hu,
          gatherMoves_cons_of_isItem hitem]
      · rw [gather_cons_of_isItem hitem]
        simpa using hchanged
      · exact hstill fun r hr => hall r (List.mem_cons_of_mem _ hr)
    | false =>
      -- the child goes into the item
      obtain ⟨v, hv, hvsize, hvchanged⟩ := Edit.exists_append_stray h hnodup
      have hperm : (idsAll (done ++ item.adopt [child] :: rest)).Perm
          (idsAll (done ++ item :: child :: rest)) := by
        simp
      obtain ⟨u, hu, hsize, hchanged, -⟩ := ih done (item.adopt [child]) hvchanged.holds
        ((hperm.cons list).nodup_iff.2 hnodup)
      refine ⟨u, fun s => ?_, hsize.trans hvsize, ?_, fun hall => ?_⟩
      · have hid : (item.adopt [child]).id = item.id := rfl
        rw [hid] at hu
        rw [List.map_cons, gatherStrays_cons_of_append (hchild.isItem_eq.trans hitem) hv, hu,
          account_account, gatherMoves_cons_of_not_isItem hitem]
        rfl
      · rw [gather_cons_of_not_isItem hitem]
        exact hvchanged.trans hchanged fun x hx _ => hperm.mem_iff.1 hx
      · rw [hall child List.mem_cons_self] at hitem
        cases hitem

/-- Where the first child is no item, one is made before it. -/
theorem exists_gatherStrays_of_not_isItem (h : t.Holds (node list payload (child :: rest)))
    (hnodup : (node list payload (child :: rest)).ids.Nodup) (hsize : t.size < NodeId.bound)
    (hitem : child.isItem = false) :
    ∃ u, (∀ s, gatherStrays list none ((child :: rest).map Rose.id) (t, s) =
        .ok () (u, account 0 1 (gatherMoves list
          (node (.ofNat t.size) itemPayload [] :: child :: rest)) s)) ∧ u.size = t.size + 1 ∧
      t.ListChanged list payload (child :: rest)
        (gather (node (.ofNat t.size) itemPayload [] :: child :: rest)) u := by
  have hchild : t.Holds child := h.kid _ List.mem_cons_self
  obtain ⟨v, hv, hvsize, hvchanged⟩ := Edit.exists_insertBefore_made h hnodup hsize
  have hperm : (node list payload (node (.ofNat t.size) itemPayload [] :: child :: rest)).ids.Perm
      (.ofNat t.size :: (node list payload (child :: rest)).ids) := List.Perm.swap _ _ _
  obtain ⟨u, hu, husize, hchanged, -⟩ :=
    exists_gatherStrays_behind (child :: rest) [] (node (.ofNat t.size) itemPayload [])
      hvchanged.holds
      (hperm.nodup_iff.2 (List.nodup_cons.2 ⟨h.ofNat_size_not_mem hsize, hnodup⟩))
  refine ⟨u, fun s => ?_, husize.trans hvsize, ?_⟩
  · have hstill : v.isItem child.id = false :=
      (hvchanged.holds.kid child (by simp)).isItem_eq.trans hitem
    have hrun := hu (account 0 1 [] s)
    rw [account_account] at hrun
    rw [List.map_cons, gatherStrays_cons_of_insertBefore (hchild.isItem_eq.trans hitem) hv hstill]
    exact hrun
  · apply hvchanged.trans hchanged
    intro x hx hlt
    rcases List.mem_cons.1 hx with rfl | hx
    · rw [NodeId.index_ofNat hsize] at hlt
      exact absurd hlt (Nat.lt_irrefl _)
    · exact hx

/-- The children of a list are gathered into items. -/
theorem exists_gatherStrays {kids : List Rose} (h : t.Holds (node list payload kids))
    (hnodup : (node list payload kids).ids.Nodup)
    (hsize : (regroupKids t.size kids).2 ≤ NodeId.bound) :
    ∃ u, (∀ s, gatherStrays list none (kids.map Rose.id) (t, s) =
        .ok () (u, account 0 (if strays kids = [] then 0 else 1)
          (gatherMoves list (seeded t.size kids)) s)) ∧ u.size = (regroupKids t.size kids).2 ∧
      t.ListChanged list payload kids (gather (seeded t.size kids)) u ∧
      ((∀ r ∈ kids, r.isItem = true) → u = t) := by
  cases kids with
  | nil =>
    have hnone : seeded t.size [] = [] := rfl
    have hstrays : strays [] = [] := rfl
    rw [hnone, gather_nil, gatherMoves_nil, if_pos hstrays]
    exact ⟨t, fun s => by rw [account_nothing]; rfl, rfl, .refl h, fun _ => rfl⟩
  | cons child rest =>
    have hchild : t.Holds child := h.kid _ List.mem_cons_self
    cases hitem : child.isItem with
    | true =>
      -- the children begin with an item
      have hstrays := strays_cons_of_isItem hitem rest
      obtain ⟨u, hu, husize, hchanged, hstill⟩ :=
        exists_gatherStrays_behind rest [] child h hnodup
      unfold seeded regroupKids
      rw [if_pos hstrays, if_pos hstrays, if_pos hstrays]
      refine ⟨u, fun s => ?_, husize, hchanged, fun hall => ?_⟩
      · rw [List.map_cons, gatherStrays_cons_of_isItem (hchild.isItem_eq.trans hitem), hu]
      · exact hstill fun r hr => hall r (List.mem_cons_of_mem _ hr)
    | false =>
      have hstrays : strays (child :: rest) ≠ [] := by
        rw [strays_cons_of_not_isItem hitem]
        exact List.cons_ne_nil _ _
      rw [regroupKids, if_neg hstrays] at hsize ⊢
      unfold seeded
      rw [if_neg hstrays, if_neg hstrays]
      obtain ⟨u, hu, husize, hchanged⟩ :=
        exists_gatherStrays_of_not_isItem h hnodup (Nat.lt_of_succ_le hsize) hitem
      refine ⟨u, hu, husize, hchanged, fun hall => ?_⟩
      rw [hall child List.mem_cons_self] at hitem
      cases hitem

/-! ## One visit -/

/-- What is noted where the given lists are regrouped one after another and items are
numbered from `next` on. -/
def noted (next : Nat) (cs : List Container) : Log × Tally → Log × Tally :=
  account cs.length (cs.countP Container.headless) (moves next cs)

@[simp] theorem noted_nil (next : Nat) (s : Log × Tally) : noted next [] s = s := account_nothing s

theorem noted_append (next : Nat) (cs ds : List Container) (s : Log × Tally) :
    noted next (cs ++ ds) s =
      noted (next + cs.countP Container.headless) ds (noted next cs s) := by
  unfold noted
  rw [account_account, moves_append, List.countP_append, List.length_append]

theorem noted_singleton (next : Nat) (c : Container) (s : Log × Tally) :
    noted next [c] s =
      account 0 (if strays c.kids = [] then 0 else 1) (gatherMoves c.id (seeded next c.kids))
        (account 1 0 [] s) := by
  unfold noted
  rw [account_account, countP_headless_singleton]
  simp [moves]

/-- `u` is what a visit of a node leaves: its children are regrouped if it is a list. -/
structure Tree.Visited (t : Tree) (id : NodeId) (payload : Payload) (kids : List Rose)
    (u : Tree) : Prop where
  size : u.size = (regroupNode t.size payload kids).2
  changed : t.ListChanged id payload kids (regroupNode t.size payload kids).1 u
  /-- Where all children are items nothing is changed. -/
  still : (∀ c ∈ containerAt id payload kids, ∀ r ∈ c.kids, r.isItem = true) → u = t

theorem regroupList_eq {id : NodeId} {kids : List Rose} (h : t.Holds (node id payload kids))
    (s : Log × Tally) :
    regroupList id (t, s) =
      if payload.isList then gatherStrays id none (kids.map Rose.id) (t, account 1 0 [] s)
      else .ok () (t, s) := by
  have hlist : t.isList id = payload.isList := h.isList_eq
  rw [← h.hasKids.children_eq]
  cases hp : payload.isList <;>
    simp [regroupList, hlist, hp, account]

/-- One node is regrouped if it is a list, and else stays. -/
theorem exists_regroupList {id : NodeId} {kids : List Rose} (h : t.Holds (node id payload kids))
    (hnodup : (node id payload kids).ids.Nodup)
    (hsize : (regroupNode t.size payload kids).2 ≤ NodeId.bound) :
    ∃ u, (∀ s, regroupList id (t, s) =
        .ok () (u, noted t.size (containerAt id payload kids) s)) ∧
      t.Visited id payload kids u := by
  cases hp : payload.isList with
  | false =>
    have hnone : containerAt id payload kids = [] := by
      simp [containerAt, hp]
    have hstay : regroupNode t.size payload kids = (kids, t.size) := by
      simp [regroupNode, hp]
    refine ⟨t, fun s => ?_, by rw [hstay], ?_, fun _ => rfl⟩
    · rw [regroupList_eq h, hnone, noted_nil, hp]
      rfl
    · rw [hstay]
      exact .refl h
  | true =>
    have hone : containerAt id payload kids = [⟨id, kids⟩] := by
      simp [containerAt, hp]
    have hnode : regroupNode t.size payload kids = regroupKids t.size kids := by
      simp [regroupNode, hp]
    rw [hnode] at hsize
    obtain ⟨u, hu, husize, hchanged, hstill⟩ := exists_gatherStrays h hnodup hsize
    refine ⟨u, fun s => ?_, husize.trans (by rw [hnode]), ?_, fun hall => ?_⟩
    · rw [regroupList_eq h, if_pos hp, hu, hone, noted_singleton]
    · rw [hnode, regroupKids_eq]
      exact hchanged
    · rw [hone] at hall
      exact hstill (hall _ (List.mem_singleton.2 rfl))

end DocTree
