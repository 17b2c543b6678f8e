import DocTree.Proofs.Regroup.Shape
set_option autoImplicit false

/-!
# Families: the child lists of a regrouped tree

A family is a node with its children.  The rewriting changes the families of lists and of
their items only.  What it leaves at a list are the groups of its children, and each of these
is a family that stays as it is from then on, because items are no lists
(`families_of_numbered`).  All other families stay altogether (`mem_familiesAll_regroupAll`).
-/

namespace DocTree

/-- A node with the numbers of its children. -/
structure Family where
  id : NodeId
  payload : Payload
  kids : List NodeId

namespace Rose

variable {r k : Rose} {rs left right : List Rose} {f : Family} {next : Nat} {id : NodeId}
  {payload : Payload} {kids : List Rose}

/-- The family at the root of a tree. -/
def family (r : Rose) : Family := ⟨r.id, r.payload, r.kids.map Rose.id⟩

mutual

/-- The families of a tree in document order. -/
def families : Rose → List Family
  | node id payload kids => ⟨id, payload, kids.map Rose.id⟩ :: familiesAll kids

/-- The families of several trees, one tree after another. -/
def familiesAll : List Rose → List Family
  | [] => []
  | r :: rs => r.families ++ familiesAll rs

end

theorem families_eq (r : Rose) : r.families = r.family :: familiesAll r.kids := by
  cases r
  rfl

@[simp] theorem familiesAll_nil : familiesAll [] = [] := rfl

@[simp] theorem familiesAll_cons (r : Rose) (rs : List Rose) :
    familiesAll (r :: rs) = r.families ++ familiesAll rs := rfl

theorem familiesAll_eq_flatMap (rs : List Rose) : familiesAll rs = rs.flatMap families := by
  induction rs with
  | nil => rfl
  | cons r rs ih => rw [familiesAll_cons, ih, List.flatMap_cons]

theorem mem_familiesAll : f ∈ familiesAll rs ↔ ∃ r ∈ rs, f ∈ r.families := by
  rw [familiesAll_eq_flatMap, List.mem_flatMap]

@[simp] theorem familiesAll_append (rs ss : List Rose) :
    familiesAll (rs ++ ss) = familiesAll rs ++ familiesAll ss := by
  rw [familiesAll_eq_flatMap, familiesAll_eq_flatMap, familiesAll_eq_flatMap,
    List.flatMap_append]

/-- Every node of a tree has a family there. -/
theorem exists_mem_families {x : NodeId} (h : x ∈ r.ids) : ∃ f ∈ r.families, f.id = x := by
  induction r using Rose.induct with
  | node id payload kids ih =>
    rw [families_eq]
    rcases List.mem_cons.1 h with rfl | h
    · exact ⟨_, List.mem_cons_self, rfl⟩
    · obtain ⟨k, hk, hx⟩ := mem_idsAll.1 h
      obtain ⟨f, hf, hid⟩ := ih k hk hx
      exact ⟨f, List.mem_cons_of_mem _ (mem_familiesAll.2 ⟨k, hk, hf⟩), hid⟩

/-! ## Families of gathered trees -/

theorem fromItem_append_cons (h : k.isItem = true) (left right : List Rose) :
    fromItem (left ++ k :: right) = fromItem left ++ k :: right := by
  induction left with
  | nil => exact fromItem_cons_of_isItem h right
  | cons r rs ih =>
    cases hr : r.isItem with
    | true => rw [List.cons_append, fromItem_cons_of_isItem hr, fromItem_cons_of_isItem hr,
        List.cons_append]
    | false => rw [List.cons_append, fromItem_cons_of_not_isItem hr,
        fromItem_cons_of_not_isItem hr, ih]

/-- An item gets the strays that stand between it and the next item. -/
theorem adopt_mem_gather (hk : k.isItem = true) (hrs : strays rs = [])
    (hsplit : rs = left ++ k :: right) : k.adopt (strays right) ∈ gather rs := by
  fun_induction gather rs generalizing left with
  | case1 => simp at hsplit
  | case2 item rest ih =>
    cases left with
    | nil =>
      obtain ⟨rfl, rfl⟩ := List.cons.inj hsplit
      exact List.mem_cons_self
    | cons r left =>
      obtain ⟨rfl, rfl⟩ := List.cons.inj hsplit
      exact List.mem_cons_of_mem _ (ih (strays_fromItem _) (fromItem_append_cons hk left right))

theorem id_mem_of_mem_fromItem {x : NodeId} (h : x ∈ (fromItem rs).map Rose.id) :
    x ∈ rs.map Rose.id :=
  ((List.dropWhile_suffix _).sublist.map Rose.id).subset h

/-- What an item holds, and what stands behind it before the next item, it holds when it has
been gathered. -/
theorem mem_familiesAll_gather_cons {item : Rose} {rest : List Rose}
    (hf : f ∈ familiesAll (item.kids ++ rest))
    (hrest : f ∈ familiesAll (fromItem rest) → f ∈ familiesAll (gather (fromItem rest))) :
    f ∈ familiesAll (gather (item :: rest)) := by
  have hkids : (item.adopt (strays rest)).kids = item.kids ++ strays rest := rfl
  rw [← strays_append_fromItem rest, ← List.append_assoc, familiesAll_append] at hf
  rw [gather_cons, familiesAll_cons, families_eq, hkids]
  rcases List.mem_append.1 hf with hf | hf
  · exact List.mem_append_left _ (List.mem_cons_of_mem _ hf)
  · exact List.mem_append_right _ (hrest hf)

/-- Gathering keeps all families but those of the items that take in strays. -/
theorem mem_familiesAll_gather (hrs : strays rs = []) (hf : f ∈ familiesAll rs)
    (hitem : f.payload.isItem = true → f.id ∉ rs.map Rose.id) : f ∈ familiesAll (gather rs) := by
  fun_induction gather rs with
  | case1 => exact hf
  | case2 item rest ih =>
    rw [← gather_cons]
    rw [familiesAll_cons, families_eq, List.cons_append, List.mem_cons, ← familiesAll_append] at hf
    rcases hf with rfl | hf
    · exact absurd List.mem_cons_self (hitem (isItem_of_strays_eq_nil hrs))
    · refine mem_familiesAll_gather_cons hf fun hf => ih (strays_fromItem rest) hf fun hf hmem => ?_
      exact hitem hf (List.mem_cons_of_mem _ (id_mem_of_mem_fromItem hmem))

/-! ## Families of regrouped children -/

/-- An item of a list gets the strays that stand between it and the next item. -/
theorem adopt_mem_regroupKids (next : Nat) (hk : k.isItem = true)
    (hsplit : kids = left ++ k :: right) :
    k.adopt (strays right) ∈ (regroupKids next kids).1 := by
  have hseeded : seeded next kids =
      (if strays kids = [] then left else node (.ofNat next) itemPayload [] :: left) ++
        k :: right := by
    unfold seeded
    split <;> simp [hsplit]
  rw [regroupKids_eq]
  exact adopt_mem_gather hk (strays_seeded next kids) hseeded

/-- Regrouping the children of a node keeps all families below it but those of the items among
the children of a list. -/
theorem mem_familiesAll_regroupNode (hf : f ∈ familiesAll kids)
    (hitem : payload.isList = true → f.payload.isItem = true → f.id ∉ kids.map Rose.id) :
    f ∈ familiesAll (regroupNode next payload kids).1 := by
  unfold regroupNode
  split
  · next hlist =>
    rw [regroupKids_eq, seeded]
    split
    · next hstrays => exact mem_familiesAll_gather hstrays hf (hitem hlist)
    · refine mem_familiesAll_gather_cons hf fun hf => ?_
      exact mem_familiesAll_gather (strays_fromItem kids) hf fun hf hmem =>
        hitem hlist hf (id_mem_of_mem_fromItem hmem)
  · exact hf

/-! ## Families of rewritten trees -/

/-- The rewriting regroups the children of the root and then keeps them. -/
theorem family_regroup (next : Nat) (r : Rose) :
    (regroup next r).1.family =
      ⟨r.id, r.payload, (regroupNode next r.payload r.kids).1.map Rose.id⟩ := by
  cases r with
  | node id payload kids =>
    rw [regroup_node]
    unfold family
    dsimp only [Rose.id, Rose.payload, Rose.kids]
    rw [map_id_regroupAll]

theorem family_regroup_of_not_isList (h : r.isList = false) (next : Nat) :
    (regroup next r).1.family = r.family := by
  have hlist : r.payload.isList = false := h
  have hstay : regroupNode next r.payload r.kids = (r.kids, next) := by
    unfold regroupNode
    rw [hlist]
    rfl
  rw [family_regroup, hstay]
  rfl

/-- The rewriting keeps the family at a root that is no list. -/
theorem family_mem_regroupAll (h : r ∈ rs) (hlist : r.isList = false) (next : Nat) :
    r.family ∈ familiesAll (regroupAll next rs).1 := by
  induction rs generalizing next with
  | nil => exact absurd h List.not_mem_nil
  | cons s rs ih =>
    rw [regroupAll_cons, familiesAll_cons]
    rcases List.mem_cons.1 h with rfl | h
    · rw [families_eq, family_regroup_of_not_isList hlist]
      exact List.mem_append_left _ List.mem_cons_self
    · exact List.mem_append_right _ (ih h _)

theorem familiesAll_regroupAll_cons (next : Nat) (id : NodeId) (payload : Payload)
    (kids rs : List Rose) :
    familiesAll (regroupAll next (node id payload kids :: rs)).1 =
      ⟨id, payload, (regroupNode next payload kids).1.map Rose.id⟩ ::
        (familiesAll (regroupBelow next payload kids).1 ++
          familiesAll (regroupAll (regroup next (node id payload kids)).2 rs).1) := by
  have hroot := family_regroup next (node id payload kids)
  rw [regroup_node] at hroot
  rw [regroupAll_cons, familiesAll_cons, families_eq, regroup_node, hroot]
  rfl

/-- Numbers of items at a node, below it and to its right. -/
theorem numbered_node_cons (next : Nat) (id : NodeId) (payload : Payload) (kids rs : List Rose) :
    numbered next (containersAll (node id payload kids :: rs)) =
      numbered next (containerAt id payload kids) ++
        (numbered (regroupNode next payload kids).2
            (containersAll (regroupNode next payload kids).1) ++
          numbered (regroup next (node id payload kids)).2 (containersAll rs)) := by
  rw [containersAll_cons, containers_node, numbered_append, numbered_append, regroup_node,
    regroupAll_snd, containersAll_regroupNode, regroupNode_snd_eq next id, List.countP_append,
    Nat.add_assoc, List.append_assoc]

/-- What the rewriting leaves at a list are the groups of its children, and below it each group
as it was made. -/
theorem families_of_numbered (next : Nat) (rs : List Rose) :
    ∀ q ∈ numbered next (containersAll rs),
      (∃ payload, ⟨q.2.id, payload, (regroupKids q.1 q.2.kids).1.map Rose.id⟩ ∈
        familiesAll (regroupAll next rs).1) ∧
      ∀ g ∈ (regroupKids q.1 q.2.kids).1, g.family ∈ familiesAll (regroupAll next rs).1 := by
  induction next, rs using regroupAll_induct with
  | nil next => exact fun q hq => absurd hq List.not_mem_nil
  | cons next id payload kids rs ihkids ihrs =>
    intro q hq
    rw [numbered_node_cons] at hq
    rw [familiesAll_regroupAll_cons]
    rcases List.mem_append.1 hq with hq | hq
    · unfold containerAt at hq
      split at hq
      · next hlist =>
        obtain rfl := List.mem_singleton.1 hq
        have hnode : regroupNode next payload kids = regroupKids next kids := if_pos hlist
        dsimp only
        rw [← hnode]
        refine ⟨⟨payload, List.mem_cons_self⟩, fun g hg => ?_⟩
        -- a group is headed by an item, which is no list
        have hgroup := Payload.isList_eq_false_of_isItem (isItem_of_mem_regroupNode hlist g hg)
        exact List.mem_cons_of_mem _ (List.mem_append_left _ (family_mem_regroupAll hg hgroup _))
      · exact absurd hq List.not_mem_nil
    · rcases List.mem_append.1 hq with hq | hq
      · obtain ⟨⟨pay, hlist⟩, hgroups⟩ := ihkids q hq
        exact ⟨⟨pay, List.mem_cons_of_mem _ (List.mem_append_left _ hlist)⟩, fun g hg =>
          List.mem_cons_of_mem _ (List.mem_append_left _ (hgroups g hg))⟩
      · obtain ⟨⟨pay, hlist⟩, hgroups⟩ := ihrs q hq
        exact ⟨⟨pay, List.mem_cons_of_mem _ (List.mem_append_right _ hlist)⟩, fun g hg =>
          List.mem_cons_of_mem _ (List.mem_append_right _ (hgroups g hg))⟩

/-- The rewriting keeps the family of a node that is neither a list nor an item of a list. -/
theorem mem_familiesAll_regroupAll (next : Nat) (rs : List Rose) :
    ∀ f ∈ familiesAll rs, f.payload.isList = false →
      (f.payload.isItem = true → ∀ c ∈ containersAll rs, f.id ∉ c.kids.map Rose.id) →
      f ∈ familiesAll (regroupAll next rs).1 := by
  induction next, rs using regroupAll_induct with
  | nil next =>
    rw [regroupAll_nil]
    exact fun f hf _ _ => hf
  | cons next id payload kids rs ihkids ihrs =>
    intro f hf hlist hitem
    rw [familiesAll_regroupAll_cons]
    rw [containersAll_cons, containers_node] at hitem
    rw [familiesAll_cons, families_eq, List.cons_append, List.mem_cons] at hf
    rcases hf with rfl | hf
    · have hroot := family_regroup_of_not_isList (r := node id payload kids) hlist next
      rw [family_regroup] at hroot
      rw [← hroot]
      exact List.mem_cons_self
    · refine List.mem_cons_of_mem _ ?_
      rcases List.mem_append.1 hf with hf | hf
      · have hkept := @mem_familiesAll_regroupNode f next payload kids hf fun hl hi =>
          hitem hi ⟨id, kids⟩ (by simp [containerAt, hl])
        refine List.mem_append_left _ (ihkids f hkept hlist fun hi c hc => hitem hi c ?_)
        rw [containersAll_regroupNode] at hc
        simp [hc]
      · exact List.mem_append_right _ (ihrs f hf hlist fun hi c hc => hitem hi c (by simp [hc]))

end Rose

end DocTree
