import DocTree.Proofs.Regroup.Containers
set_option autoImplicit false

/-!
# Shape: what the lists of a regrouped tree look like

In a regrouped tree the children of all lists are items (`isItem_of_mem_regroupAll`), and
an item that was made is the first child of a list and begins with a child that stood
there before (`exists_of_mem_numbers`).
-/

namespace DocTree

namespace Rose

theorem map_payload_regroupAll (next : Nat) (rs : List Rose) :
    (regroupAll next rs).1.map payload = rs.map payload := by
  induction rs generalizing next with
  | nil => rw [regroupAll_nil]
  | cons r rs ih => rw [regroupAll_cons, List.map_cons, List.map_cons, payload_regroup, ih]

/-- Rewriting makes no item of what was none, and none of what was one. -/
theorem forall_isItem_regroupAll {next : Nat} {rs : List Rose}
    (h : ∀ r ∈ rs, r.isItem = true) : ∀ r ∈ (regroupAll next rs).1, r.isItem = true := by
  intro r hr
  have hmem : r.payload ∈ rs.map payload := by
    rw [← map_payload_regroupAll next rs]
    exact List.mem_map_of_mem hr
  obtain ⟨s, hs, hpayload⟩ := List.mem_map.1 hmem
  have hitem := h s hs
  rwa [isItem, hpayload] at hitem

/-! ## Children of lists -/

/-- The children of a regrouped list are items. -/
theorem isItem_of_mem_regroupNode {next : Nat} {payload : Payload} {kids : List Rose}
    (hlist : payload.isList = true) :
    ∀ r ∈ (regroupNode next payload kids).1, r.isItem = true := by
  unfold regroupNode
  rw [if_pos hlist, regroupKids_eq]
  exact isItem_of_mem_gather _ (strays_seeded next kids)

/-- The children of all lists of regrouped trees are items. -/
theorem isItem_of_mem_regroupAll (next : Nat) (rs : List Rose) :
    ∀ c ∈ containersAll (regroupAll next rs).1, ∀ r ∈ c.kids, r.isItem = true := by
  induction next, rs using regroupAll_induct with
  | nil next =>
    rw [regroupAll_nil]
    exact fun c hc => absurd hc List.not_mem_nil
  | cons next id payload kids rs ihkids ihrs =>
    intro c hc
    rw [regroupAll_cons] at hc
    rw [regroup_node] at ihrs hc
    rw [containersAll_cons, containers_node] at hc
    rcases List.mem_append.1 hc with hc | hc
    · rcases List.mem_append.1 hc with hc | hc
      · unfold containerAt at hc
        split at hc
        · next hlist =>
          rw [List.mem_singleton.1 hc]
          exact forall_isItem_regroupAll (isItem_of_mem_regroupNode hlist)
        · exact absurd hc List.not_mem_nil
      · exact ihkids c hc
    · exact ihrs c hc

/-! ## Items that are made -/

/-- The item that is made at a list keeps its place before all other children, and what
was the first child of the list becomes its first child. -/
theorem exists_regroupAll_of_strays {next : Nat} {payload : Payload} {kids : List Rose}
    (hlist : payload.isList = true) (hstrays : strays kids ≠ []) :
    ∃ k ∈ kids, ∃ below others first,
      (regroupBelow next payload kids).1 =
        node (.ofNat next) itemPayload (first :: below) :: others ∧ first.id = k.id := by
  obtain ⟨k, ks, hks⟩ := List.exists_cons_of_ne_nil hstrays
  have hk : k ∈ kids := by
    rw [← strays_append_fromItem kids, hks]
    simp
  have hitem : itemPayload.isList = false := Payload.isList_eq_false_of_isItem isItem_itemPayload
  have hstay : regroupNode (next + 1) itemPayload (strays kids) = (strays kids, next + 1) := by
    unfold regroupNode
    rw [hitem]
    rfl
  unfold regroupBelow
  rw [regroupNode_of_strays next hlist hstrays, regroupAll_cons, regroup_node]
  unfold regroupBelow
  rw [hstay, hks, regroupAll_cons]
  exact ⟨k, hk, _, _, _, rfl, id_regroup _ k⟩

/-- Every item that is made is the first child of a list and begins with what was a child
of that list before. -/
theorem exists_of_mem_numbers (m next : Nat) (rs : List Rose)
    (hold : ∀ c ∈ containersAll rs, ∀ k ∈ c.kids, k.id.index < m) :
    ∀ x ∈ numbers next (regroupAll next rs).2, ∃ c ∈ containersAll (regroupAll next rs).1,
      ∃ first below others,
        c.kids = node x itemPayload (first :: below) :: others ∧ first.id.index < m := by
  induction next, rs using regroupAll_induct with
  | nil next =>
    intro x hx
    rw [regroupAll_nil, numbers, Nat.sub_self] at hx
    exact absurd hx List.not_mem_nil
  | cons next id payload kids rs ihkids ihrs =>
    intro x hx
    have hkids := le_regroupBelow next payload kids
    have hrest := le_regroupAll (regroup next (node id payload kids)).2 rs
    have hnode := regroupNode_snd next payload kids
    rw [containersAll_cons, containers_node] at hold
    rw [regroupAll_cons] at hx ⊢
    rw [regroup_node] at ihrs hrest hx ⊢
    rw [containersAll_cons, containers_node]
    dsimp only at hx hrest ihrs ⊢
    rw [← numbers_append (by omega) hrest, ← numbers_append (by omega) hkids] at hx
    rcases List.mem_append.1 hx with hx | hx
    · rcases List.mem_append.1 hx with hx | hx
      · -- the item is made at this node
        rw [← madeAt_eq_numbers, madeAt] at hx
        split at hx
        · next hmade =>
          obtain ⟨k, hk, below, others, first, hkids', hid⟩ :=
            @exists_regroupAll_of_strays next payload kids hmade.1 hmade.2
          have hhere : ∀ ks, containerAt id payload ks = [⟨id, ks⟩] := fun ks => if_pos hmade.1
          rw [hhere] at hold ⊢
          refine ⟨_, List.mem_append_left _ (List.mem_append_left _ (List.mem_singleton.2 rfl)),
            first, below, others, ?_, ?_⟩
          · rw [List.mem_singleton.1 hx]
            exact hkids'
          · rw [hid]
            exact hold ⟨id, kids⟩ (by simp) k hk
        · exact absurd hx List.not_mem_nil
      · obtain ⟨c, hc, hmade⟩ := ihkids (by
          rw [containersAll_regroupNode]
          exact fun c hc => hold c (by simp [hc])) x hx
        exact ⟨c, by simp [hc], hmade⟩
    · obtain ⟨c, hc, hmade⟩ := ihrs (fun c hc => hold c (by simp [hc])) x hx
      exact ⟨c, by simp [hc], hmade⟩

/-! ## Trees whose lists hold items only -/

theorem headless_eq_false {c : Container} (h : ∀ r ∈ c.kids, r.isItem = true) :
    c.headless = false := by
  rw [← Bool.not_eq_true, headless_iff]
  exact not_not_intro (strays_eq_nil_of_forall_isItem h)

theorem countP_headless_eq_zero {cs : List Container}
    (h : ∀ c ∈ cs, ∀ r ∈ c.kids, r.isItem = true) : cs.countP Container.headless = 0 := by
  rw [List.countP_eq_zero]
  intro c hc
  rw [headless_eq_false (h c hc)]
  exact Bool.false_ne_true

/-- Items are not moved. -/
theorem gatherMoves_eq_nil {list : NodeId} {rs : List Rose} (h : ∀ r ∈ rs, r.isItem = true) :
    gatherMoves list rs = [] := by
  induction rs with
  | nil => rw [gatherMoves_nil]
  | cons r rs ih =>
    have hrs : ∀ r ∈ rs, r.isItem = true := fun r hr => h r (List.mem_cons_of_mem _ hr)
    have hnone := strays_eq_nil_of_forall_isItem hrs
    rw [gatherMoves_cons, hnone, fromItem_eq_self hnone, ih hrs]
    rfl

theorem moves_eq_nil {next : Nat} {cs : List Container}
    (h : ∀ c ∈ cs, ∀ r ∈ c.kids, r.isItem = true) : moves next cs = [] := by
  induction cs generalizing next with
  | nil => rfl
  | cons c cs ih =>
    have hc := h c List.mem_cons_self
    rw [moves, seeded, if_pos (strays_eq_nil_of_forall_isItem hc), gatherMoves_eq_nil hc,
      ih fun d hd => h d (List.mem_cons_of_mem _ hd)]
    rfl

end Rose

end DocTree
