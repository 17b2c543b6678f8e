import DocTree.Proofs.Regroup.Rewrite
set_option autoImplicit false

/-!
# Numbering: document order under the rewriting

The rewriting keeps all old numbers in their order (`filter_idsAll_regroupAll`), and the
numbers of new items are consecutive in document order (`filter_idsAll_regroupAll_new`).
-/

namespace DocTree

namespace Rose

/-- The numbers from `next` up to, but without, `stop`. -/
def numbers (next stop : Nat) : List NodeId := (List.range' next (stop - next)).map NodeId.ofNat

theorem numbers_append {a b c : Nat} (hab : a ≤ b) (hbc : b ≤ c) :
    numbers a b ++ numbers b c = numbers a c := by
  unfold numbers
  rw [← List.map_append]
  congr 1
  obtain ⟨m, rfl⟩ := Nat.exists_eq_add_of_le hab
  obtain ⟨n, rfl⟩ := Nat.exists_eq_add_of_le hbc
  rw [Nat.add_sub_cancel_left, Nat.add_sub_cancel_left, Nat.add_assoc, Nat.add_sub_cancel_left]
  exact List.range'_append_1

theorem mem_numbers {next stop : Nat} {x : NodeId} (hstop : stop ≤ NodeId.bound) :
    x ∈ numbers next stop ↔ next ≤ x.index ∧ x.index < stop := by
  unfold numbers
  rw [List.mem_map]
  constructor
  · rintro ⟨i, hi, rfl⟩
    obtain ⟨h1, h2⟩ := List.mem_range'_1.1 hi
    rw [NodeId.index_ofNat (by omega)]
    omega
  · rintro ⟨h1, h2⟩
    refine ⟨x.index, List.mem_range'_1.2 (by omega), ?_⟩
    exact NodeId.index_inj.1 (NodeId.index_ofNat (by omega))

theorem nodup_numbers {next stop : Nat} (hstop : stop ≤ NodeId.bound) :
    (numbers next stop).Nodup := by
  refine List.Nodup.map_on (fun i hi j hj hij => ?_) List.nodup_range'
  have hi' := List.mem_range'_1.1 hi
  have hj' := List.mem_range'_1.1 hj
  rw [← NodeId.index_ofNat (n := i) (by omega), ← NodeId.index_ofNat (n := j) (by omega), hij]

theorem madeAt_eq_numbers (next : Nat) (payload : Payload) (kids : List Rose) :
    madeAt next payload kids = numbers next (regroupNode next payload kids).2 := by
  rw [regroupNode_snd, numbers, Nat.add_sub_cancel_left, madeAt]
  split <;> rfl

/-- The numbers below `n` stay, in their order, if all items are numbered from `n` on. -/
theorem filter_idsAll_regroupAll (n next : Nat) (rs : List Rose) (hn : n ≤ next)
    (hbound : (regroupAll next rs).2 ≤ NodeId.bound) :
    (idsAll (regroupAll next rs).1).filter (fun x => x.index < n) =
      (idsAll rs).filter fun x => x.index < n := by
  induction next, rs using regroupAll_induct with
  | nil next => rw [regroupAll_nil]
  | cons next id payload kids rs ihkids ihrs =>
    have hkids := le_regroupBelow next payload kids
    have hnode := regroupNode_snd next payload kids
    have hrest := le_regroupAll (regroup next (node id payload kids)).2 rs
    rw [regroupAll_cons] at hbound ⊢
    rw [regroup_node] at ihrs hbound hrest ⊢
    dsimp only at ihrs hbound hrest ⊢
    have hmade : (madeAt next payload kids).filter (fun x => decide (x.index < n)) = [] := by
      rw [List.filter_eq_nil_iff]
      intro x hx
      rw [madeAt_eq_numbers, mem_numbers (by omega)] at hx
      simp only [decide_eq_true_eq]
      omega
    have hbelow : (regroupBelow next payload kids).2 ≤ NodeId.bound := by omega
    rw [idsAll_cons, idsAll_cons, ids_node, ids_node, List.filter_append, List.filter_append,
      List.filter_cons, List.filter_cons, ihkids (by omega) hbelow, ihrs (by omega) hbound,
      idsAll_regroupNode, List.filter_append, hmade, List.nil_append]

/-- What is numbered below `next` after the rewriting was there before. -/
theorem mem_of_mem_regroupAll {next : Nat} {rs : List Rose}
    (hbound : (regroupAll next rs).2 ≤ NodeId.bound) {x : NodeId}
    (hx : x ∈ idsAll (regroupAll next rs).1) (hlt : x.index < next) : x ∈ idsAll rs := by
  have hmem : x ∈ (idsAll (regroupAll next rs).1).filter fun x => x.index < next :=
    List.mem_filter.2 ⟨hx, decide_eq_true hlt⟩
  rw [filter_idsAll_regroupAll next next rs (Nat.le_refl next) hbound] at hmem
  exact (List.mem_filter.1 hmem).1

theorem mem_of_mem_regroup {next : Nat} {r : Rose} (hbound : (regroup next r).2 ≤ NodeId.bound)
    {x : NodeId} (hx : x ∈ (regroup next r).1.ids) (hlt : x.index < next) : x ∈ r.ids := by
  have hmem := @mem_of_mem_regroupAll next [r] (by rwa [regroupAll_singleton]) x
  rw [regroupAll_singleton, idsAll_singleton, idsAll_singleton] at hmem
  exact hmem hx hlt

theorem mem_of_mem_regroupNode {next : Nat} {payload : Payload} {kids : List Rose}
    (hbound : (regroupNode next payload kids).2 ≤ NodeId.bound) {x : NodeId}
    (hx : x ∈ idsAll (regroupNode next payload kids).1) (hlt : x.index < next) :
    x ∈ idsAll kids := by
  rw [idsAll_regroupNode, madeAt_eq_numbers] at hx
  rcases List.mem_append.1 hx with hx | hx
  · have := (mem_numbers hbound).1 hx
    omega
  · exact hx

/-- Regrouping one node keeps numbers distinct. -/
theorem nodup_idsAll_regroupNode {next : Nat} {payload : Payload} {kids : List Rose}
    (hold : ∀ x ∈ idsAll kids, x.index < next)
    (hbound : (regroupNode next payload kids).2 ≤ NodeId.bound) (hnodup : (idsAll kids).Nodup) :
    (idsAll (regroupNode next payload kids).1).Nodup := by
  rw [idsAll_regroupNode, madeAt_eq_numbers]
  apply (nodup_numbers hbound).append hnodup
  intro x hx hkids
  have := hold x hkids
  have := (mem_numbers hbound).1 hx
  omega

theorem length_idsAll_regroupNode (next : Nat) (payload : Payload) (kids : List Rose) :
    (idsAll (regroupNode next payload kids).1).length + next =
      (idsAll kids).length + (regroupNode next payload kids).2 := by
  rw [idsAll_regroupNode, List.length_append, regroupNode_snd]
  omega

/-- Rewriting does not change which number comes first. -/
theorem exists_idsAll_regroupAll_cons (next : Nat) (r : Rose) (rs : List Rose) :
    ∃ ids, idsAll (regroupAll next (r :: rs)).1 = r.id :: ids := by
  cases r
  rw [regroupAll_cons, idsAll_cons, regroup_node, ids_node, List.cons_append]
  exact ⟨_, rfl⟩

/-- A list that begins with the number `next`, and whose other numbers are below `m` or
above `next`: those from `m` on are `next` and those above. -/
theorem filter_cons_ofNat {m next : Nat} {ids old : List NodeId} (hm : m ≤ next)
    (hnext : next < NodeId.bound) (hold : ∀ x ∈ old, x.index < m)
    (hids : ids.filter (fun x => x.index < next + 1) = old) :
    (NodeId.ofNat next :: ids).filter (fun x => m ≤ x.index) =
      .ofNat next :: ids.filter fun x => next + 1 ≤ x.index := by
  rw [List.filter_cons, if_pos (by simpa [NodeId.index_ofNat hnext] using hm)]
  congr 1
  apply List.filter_congr
  intro x hx
  rw [decide_eq_decide]
  refine ⟨fun hmx => ?_, fun hle => by omega⟩
  by_contra hlt
  have hmem : x ∈ old := by
    rw [← hids]
    exact List.mem_filter.2 ⟨hx, by simpa using Nat.lt_of_not_le hlt⟩
  exact absurd hmx (Nat.not_le.2 (hold x hmem))

/-- The new numbers below a node at which an item is made: that item comes first. -/
theorem filter_idsAll_below_made {m next : Nat} {payload : Payload} {kids : List Rose}
    (hm : m ≤ next) (hold : ∀ x ∈ idsAll kids, x.index < m) (hlist : payload.isList = true)
    (hstrays : strays kids ≠ [])
    (hbound : (regroupBelow next payload kids).2 ≤ NodeId.bound)
    (hnew : (idsAll (regroupBelow next payload kids).1).filter (fun x => next + 1 ≤ x.index) =
      numbers (next + 1) (regroupBelow next payload kids).2) :
    (idsAll (regroupBelow next payload kids).1).filter (fun x => m ≤ x.index) =
      numbers next (regroupBelow next payload kids).2 := by
  have hfst := congrArg Prod.fst (regroupNode_of_strays next hlist hstrays)
  have hsnd : (regroupNode next payload kids).2 = next + 1 :=
    congrArg Prod.snd (regroupNode_of_strays next hlist hstrays)
  have hids : idsAll (regroupNode next payload kids).1 = .ofNat next :: idsAll kids := by
    rw [idsAll_regroupNode, madeAt, if_pos ⟨hlist, hstrays⟩, List.singleton_append]
  have hle := le_regroupBelow next payload kids
  have hindex : (NodeId.ofNat next).index = next := NodeId.index_ofNat (by omega)
  have hkept := filter_idsAll_regroupAll (next + 1) (regroupNode next payload kids).2
    (regroupNode next payload kids).1 (by omega) hbound
  obtain ⟨ids, hhead⟩ : ∃ ids, idsAll (regroupBelow next payload kids).1 = .ofNat next :: ids := by
    unfold regroupBelow
    rw [hfst]
    exact exists_idsAll_regroupAll_cons _ _ _
  have hall : (idsAll kids).filter (fun x => decide (x.index < next + 1)) = idsAll kids := by
    refine List.filter_eq_self.2 fun x hx => decide_eq_true ?_
    have := hold x hx
    omega
  rw [hids, hhead, List.filter_cons, List.filter_cons, if_pos (by simp [hindex]),
    if_pos (by simp [hindex]), hall, List.cons.injEq] at hkept
  rw [hhead, List.filter_cons, if_neg (by simp [hindex])] at hnew
  have hfirst : numbers next (next + 1) = [NodeId.ofNat next] := by
    unfold numbers
    rw [Nat.add_sub_cancel_left]
    rfl
  rw [hhead, filter_cons_ofNat hm (by omega) hold hkept.2, hnew,
    ← numbers_append (Nat.le_succ next) (by omega), hfirst]
  rfl

/-- The new numbers below a node. -/
theorem filter_idsAll_below {m next : Nat} {payload : Payload} {kids : List Rose}
    (hm : m ≤ next) (hold : ∀ x ∈ idsAll kids, x.index < m)
    (hbound : (regroupBelow next payload kids).2 ≤ NodeId.bound)
    (hnew : ∀ n ≤ (regroupNode next payload kids).2,
      (∀ x ∈ idsAll (regroupNode next payload kids).1, x.index < n) →
      (idsAll (regroupBelow next payload kids).1).filter (fun x => n ≤ x.index) =
        numbers (regroupNode next payload kids).2 (regroupBelow next payload kids).2) :
    (idsAll (regroupBelow next payload kids).1).filter (fun x => m ≤ x.index) =
      numbers next (regroupBelow next payload kids).2 := by
  have hsnd := regroupNode_snd next payload kids
  have hids := idsAll_regroupNode next payload kids
  have hle := le_regroupBelow next payload kids
  by_cases hmade : payload.isList = true ∧ strays kids ≠ []
  · rw [madeAt, if_pos hmade] at hsnd hids
    have hsnd : (regroupNode next payload kids).2 = next + 1 := hsnd
    apply filter_idsAll_below_made hm hold hmade.1 hmade.2 hbound
    rw [hnew (next + 1) (by omega), hsnd]
    rw [hids]
    intro x hx
    rcases List.mem_cons.1 hx with rfl | hx
    · rw [NodeId.index_ofNat (by omega)]
      exact Nat.lt_succ_self next
    · have := hold x hx
      omega
  · rw [madeAt, if_neg hmade] at hsnd hids
    have hsnd : (regroupNode next payload kids).2 = next := hsnd
    rw [hnew m (by omega) (by rwa [hids]), hsnd]

/-- If all numbers are below `m`, those from `m` on are in document order the numbers of
the items that are made. -/
theorem filter_idsAll_regroupAll_new (next : Nat) (rs : List Rose) :
    ∀ m ≤ next, (∀ x ∈ idsAll rs, x.index < m) → (regroupAll next rs).2 ≤ NodeId.bound →
      (idsAll (regroupAll next rs).1).filter (fun x => m ≤ x.index) =
        numbers next (regroupAll next rs).2 := by
  induction next, rs using regroupAll_induct with
  | nil next =>
    intro m _ _ _
    rw [regroupAll_nil, numbers, Nat.sub_self]
    rfl
  | cons next id payload kids rs ihkids ihrs =>
    intro m hm hold hbound
    rw [idsAll_cons, ids_node] at hold
    have hrest := le_regroupAll (regroup next (node id payload kids)).2 rs
    rw [regroupAll_cons] at hbound ⊢
    rw [regroup_node] at ihrs hbound hrest ⊢
    dsimp only at ihrs hbound hrest ⊢
    have hkids := le_regroupBelow next payload kids
    have hsnd := regroupNode_snd next payload kids
    have hid : ¬ m ≤ id.index := Nat.not_le.2 (hold id (by simp))
    have hbelow : (regroupBelow next payload kids).2 ≤ NodeId.bound := by omega
    rw [idsAll_cons, ids_node, List.filter_append, List.filter_cons, if_neg (by simpa using hid),
      filter_idsAll_below hm (fun x hx => hold x (by simp [hx])) hbelow
        fun n hn hlt => ihkids n hn hlt hbelow,
      ihrs m (by omega) (fun x hx => hold x (by simp [hx])) hbound,
      numbers_append (by omega) hrest]

/-- After the rewriting there are the old numbers and those of the new items. -/
theorem idsAll_regroupAll_perm {next : Nat} {rs : List Rose}
    (hold : ∀ x ∈ idsAll rs, x.index < next) (hbound : (regroupAll next rs).2 ≤ NodeId.bound) :
    (idsAll (regroupAll next rs).1).Perm (idsAll rs ++ numbers next (regroupAll next rs).2) := by
  have hnew := filter_idsAll_regroupAll_new next rs next (Nat.le_refl next) hold hbound
  have hkept := filter_idsAll_regroupAll next next rs (Nat.le_refl next) hbound
  have hall : (idsAll rs).filter (fun x => decide (x.index < next)) = idsAll rs :=
    List.filter_eq_self.2 fun x hx => decide_eq_true (hold x hx)
  rw [hall] at hkept
  have hperm := List.filter_append_perm (fun x : NodeId => decide (x.index < next))
    (idsAll (regroupAll next rs).1)
  have hcompl : (idsAll (regroupAll next rs).1).filter (fun x => !decide (x.index < next)) =
      numbers next (regroupAll next rs).2 := by
    rw [← hnew]
    apply List.filter_congr
    intro x _
    by_cases hx : x.index < next
    · simp [hx, Nat.not_le.2 hx]
    · simp [hx, Nat.le_of_not_lt hx]
  rw [hkept, hcompl] at hperm
  exact hperm.symm

/-- The rewriting keeps numbers distinct. -/
theorem nodup_idsAll_regroupAll {next : Nat} {rs : List Rose}
    (hold : ∀ x ∈ idsAll rs, x.index < next) (hbound : (regroupAll next rs).2 ≤ NodeId.bound)
    (hnodup : (idsAll rs).Nodup) : (idsAll (regroupAll next rs).1).Nodup := by
  rw [(idsAll_regroupAll_perm hold hbound).nodup_iff]
  apply hnodup.append (nodup_numbers hbound)
  intro x hx hxn
  have := hold x hx
  have := (mem_numbers hbound).1 hxn
  omega

theorem length_idsAll_regroupAll {next : Nat} {rs : List Rose}
    (hold : ∀ x ∈ idsAll rs, x.index < next) (hbound : (regroupAll next rs).2 ≤ NodeId.bound) :
    (idsAll (regroupAll next rs).1).length + next =
      (idsAll rs).length + (regroupAll next rs).2 := by
  have hle := le_regroupAll next rs
  rw [(idsAll_regroupAll_perm hold hbound).length_eq, List.length_append, numbers,
    List.length_map, List.length_range']
  omega

/-- Below a node there are the old nodes and the items that are made there and further
below. -/
theorem length_idsAll_regroupBelow {next : Nat} {payload : Payload} {kids : List Rose}
    (hold : ∀ x ∈ idsAll kids, x.index < next)
    (hbound : (regroupBelow next payload kids).2 ≤ NodeId.bound) :
    (idsAll (regroupBelow next payload kids).1).length + next =
      (idsAll kids).length + (regroupBelow next payload kids).2 := by
  have hle := le_regroupBelow next payload kids
  have hnode := length_idsAll_regroupNode next payload kids
  have hsnd := regroupNode_snd next payload kids
  have hlt : ∀ x ∈ idsAll (regroupNode next payload kids).1,
      x.index < (regroupNode next payload kids).2 := by
    rw [idsAll_regroupNode, madeAt_eq_numbers]
    intro x hx
    rcases List.mem_append.1 hx with hx | hx
    · exact ((mem_numbers (by omega)).1 hx).2
    · have := hold x hx
      omega
  have hbelow : (idsAll (regroupBelow next payload kids).1).length +
      (regroupNode next payload kids).2 =
      (idsAll (regroupNode next payload kids).1).length + (regroupBelow next payload kids).2 :=
    length_idsAll_regroupAll hlt hbound
  omega

end Rose

end DocTree
