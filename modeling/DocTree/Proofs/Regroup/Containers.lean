import DocTree.Log
import DocTree.Proofs.Regroup.Numbering
set_option autoImplicit false

/-!
# Containers: the lists of an ordered tree

Regrouping changes the child lists of lists and of items only, and no item is a list: a
list keeps its children until the rewriting comes to it
(`containersAll_regroupNode`).  So the items to be made (`regroupAll_snd`) and the moves
to be reported (`moves`) can be told from the lists of the tree as it was before.
-/

namespace DocTree

/-- A list with its children. -/
structure Container where
  id : NodeId
  kids : List Rose

namespace Rose

/-! ## One list -/

/-- The children of a list, behind the item that is made for those before the first item
if there are any. -/
def seeded (next : Nat) (kids : List Rose) : List Rose :=
  if strays kids = [] then kids else node (.ofNat next) itemPayload [] :: kids

@[simp] theorem gather_cons (item : Rose) (rest : List Rose) :
    gather (item :: rest) = item.adopt (strays rest) :: gather (fromItem rest) := by
  rw [gather]

@[simp] theorem gather_nil : gather [] = [] := by
  rw [gather]

/-- Regrouping is gathering behind the item that is made. -/
theorem regroupKids_eq (next : Nat) (kids : List Rose) :
    (regroupKids next kids).1 = gather (seeded next kids) := by
  unfold regroupKids seeded
  split
  · rfl
  · rw [gather_cons]
    rfl

/-- An item among the trees begins a new group. -/
@[simp] theorem strays_cons_of_isItem {r : Rose} (h : r.isItem = true) (rs : List Rose) :
    strays (r :: rs) = [] := by
  simp [strays, h]

@[simp] theorem fromItem_cons_of_isItem {r : Rose} (h : r.isItem = true) (rs : List Rose) :
    fromItem (r :: rs) = r :: rs := by
  simp [fromItem, h]

@[simp] theorem strays_cons_of_not_isItem {r : Rose} (h : r.isItem = false) (rs : List Rose) :
    strays (r :: rs) = r :: strays rs := by
  simp [strays, h]

@[simp] theorem fromItem_cons_of_not_isItem {r : Rose} (h : r.isItem = false) (rs : List Rose) :
    fromItem (r :: rs) = fromItem rs := by
  simp [fromItem, h]

@[simp] theorem strays_fromItem (rs : List Rose) : strays (fromItem rs) = [] := by
  induction rs with
  | nil => rfl
  | cons r rs ih =>
    cases hr : r.isItem with
    | true => rw [fromItem_cons_of_isItem hr, strays_cons_of_isItem hr]
    | false => rw [fromItem_cons_of_not_isItem hr, ih]

theorem isItem_of_strays_eq_nil {r : Rose} {rs : List Rose} (h : strays (r :: rs) = []) :
    r.isItem = true := by
  cases hr : r.isItem with
  | true => rfl
  | false =>
    rw [strays_cons_of_not_isItem hr] at h
    cases h

/-- What is gathered behind an item are items. -/
theorem isItem_of_mem_gather (rs : List Rose) (h : strays rs = []) :
    ∀ r ∈ gather rs, r.isItem = true := by
  fun_induction gather rs with
  | case1 => exact fun r hr => absurd hr List.not_mem_nil
  | case2 item rest ih =>
    intro r hr
    rcases List.mem_cons.1 hr with rfl | hr
    · exact @isItem_of_strays_eq_nil item rest h
    · exact ih (strays_fromItem rest) r hr

theorem fromItem_eq_self {rs : List Rose} (h : strays rs = []) : fromItem rs = rs := by
  have hsplit := strays_append_fromItem rs
  rwa [h, List.nil_append] at hsplit

theorem strays_eq_nil_of_forall_isItem {rs : List Rose} (h : ∀ r ∈ rs, r.isItem = true) :
    strays rs = [] := by
  cases rs with
  | nil => rfl
  | cons r rs => exact strays_cons_of_isItem (h r List.mem_cons_self) rs

@[simp] theorem adopt_nil (r : Rose) : r.adopt [] = r := by
  cases r
  rw [adopt, List.append_nil]
  rfl

/-! ## The lists of a tree -/

/-- The node is a list with its children, or nothing. -/
def containerAt (id : NodeId) (payload : Payload) (kids : List Rose) : List Container :=
  if payload.isList then [⟨id, kids⟩] else []

mutual

/-- The lists of a tree in document order. -/
def containers : Rose → List Container
  | node id payload kids => containerAt id payload kids ++ containersAll kids

/-- The lists of several trees, one tree after another. -/
def containersAll : List Rose → List Container
  | [] => []
  | r :: rs => r.containers ++ containersAll rs

end

@[simp] theorem containers_node (id : NodeId) (payload : Payload) (kids : List Rose) :
    (node id payload kids).containers = containerAt id payload kids ++ containersAll kids := rfl

@[simp] theorem containersAll_nil : containersAll [] = [] := rfl

@[simp] theorem containersAll_cons (r : Rose) (rs : List Rose) :
    containersAll (r :: rs) = r.containers ++ containersAll rs := rfl

theorem containersAll_singleton (r : Rose) : containersAll [r] = r.containers := by
  rw [containersAll_cons, containersAll_nil, List.append_nil]

theorem containersAll_eq_flatMap (rs : List Rose) : containersAll rs = rs.flatMap containers := by
  induction rs with
  | nil => rfl
  | cons r rs ih => rw [containersAll_cons, ih, List.flatMap_cons]

@[simp] theorem containersAll_append (rs ss : List Rose) :
    containersAll (rs ++ ss) = containersAll rs ++ containersAll ss := by
  rw [containersAll_eq_flatMap, containersAll_eq_flatMap, containersAll_eq_flatMap,
    List.flatMap_append]

theorem mem_containersAll {c : Container} {rs : List Rose} :
    c ∈ containersAll rs ↔ ∃ r ∈ rs, c ∈ r.containers := by
  rw [containersAll_eq_flatMap, List.mem_flatMap]

/-- What an item takes in is added behind what it holds; the item is no list itself. -/
theorem containers_adopt {r : Rose} (h : r.isItem = true) (more : List Rose) :
    (r.adopt more).containers = r.containers ++ containersAll more := by
  cases r with
  | node id payload kids =>
    have hlist : payload.isList = false := Payload.isList_eq_false_of_isItem h
    simp [adopt, Rose.kids, Rose.payload, containerAt, hlist]

theorem containersAll_strays_append (rs : List Rose) :
    containersAll (strays rs) ++ containersAll (fromItem rs) = containersAll rs := by
  rw [← containersAll_append, strays_append_fromItem]

/-- Gathering behind an item keeps all lists and their children. -/
theorem containersAll_gather (rs : List Rose) (h : strays rs = []) :
    containersAll (gather rs) = containersAll rs := by
  fun_induction gather rs with
  | case1 => rfl
  | case2 item rest ih =>
    rw [containersAll_cons, containers_adopt (isItem_of_strays_eq_nil h),
      ih (strays_fromItem rest), List.append_assoc, containersAll_strays_append,
      containersAll_cons]

theorem strays_seeded (next : Nat) (kids : List Rose) : strays (seeded next kids) = [] := by
  unfold seeded
  split
  · next h => exact h
  · have hitem : (node (.ofNat next) itemPayload []).isItem = true := isItem_itemPayload
    exact strays_cons_of_isItem hitem kids

theorem containersAll_seeded (next : Nat) (kids : List Rose) :
    containersAll (seeded next kids) = containersAll kids := by
  unfold seeded
  split
  · rfl
  · have hlist : itemPayload.isList = false :=
      Payload.isList_eq_false_of_isItem isItem_itemPayload
    simp [containerAt, hlist]

/-- Regrouping the children of a node keeps all lists below it and their children. -/
theorem containersAll_regroupNode (next : Nat) (payload : Payload) (kids : List Rose) :
    containersAll (regroupNode next payload kids).1 = containersAll kids := by
  unfold regroupNode
  split
  · rw [regroupKids_eq, containersAll_gather _ (strays_seeded next kids), containersAll_seeded]
  · rfl

/-! ## Items that are made -/

end Rose

/-- The list begins with a child that is no item. -/
def Container.headless (c : Container) : Bool := c.kids.head?.any fun r => !r.isItem

namespace Rose

theorem headless_iff {c : Container} : c.headless = true ↔ strays c.kids ≠ [] := by
  unfold Container.headless
  cases c.kids with
  | nil => simp [strays]
  | cons r rs =>
    cases hr : r.isItem with
    | true => simp [hr]
    | false => simp [hr]

theorem countP_headless_singleton (c : Container) :
    [c].countP Container.headless = if strays c.kids = [] then 0 else 1 := by
  rw [List.countP_singleton]
  by_cases h : strays c.kids = []
  · rw [if_pos h, if_neg fun hc => headless_iff.1 hc h]
  · rw [if_neg h, if_pos (headless_iff.2 h)]

/-- One item is made at each list that begins with a child that is no item. -/
theorem regroupNode_snd_eq (next : Nat) (id : NodeId) (payload : Payload) (kids : List Rose) :
    (regroupNode next payload kids).2 =
      next + (containerAt id payload kids).countP Container.headless := by
  unfold regroupNode containerAt
  split
  · rw [countP_headless_singleton, regroupKids]
    split <;> rfl
  · rfl

/-- The rewriting makes as many items as there are lists that begin with a child that is
no item. -/
theorem regroupAll_snd (next : Nat) (rs : List Rose) :
    (regroupAll next rs).2 = next + (containersAll rs).countP Container.headless := by
  induction next, rs using regroupAll_induct with
  | nil next =>
    rw [regroupAll_nil]
    rfl
  | cons next id payload kids rs ihkids ihrs =>
    rw [regroupAll_cons]
    rw [regroup_node] at ihrs ⊢
    dsimp only at ihrs ⊢
    rw [ihrs, ihkids, containersAll_regroupNode, regroupNode_snd_eq next id, containersAll_cons,
      containers_node, List.countP_append, List.countP_append]
    omega

/-! ## Moves that are reported -/

/-- The reports of gathering the children of a list behind its items. -/
def gatherMoves (list : NodeId) : List Rose → List Event
  | [] => []
  | item :: rest =>
    (strays rest).map (fun r => .moved r.id list item.id) ++ gatherMoves list (fromItem rest)
  termination_by rs => rs.length
  decreasing_by exact Nat.lt_succ_of_le (length_fromItem_le rest)

@[simp] theorem gatherMoves_nil (list : NodeId) : gatherMoves list [] = [] := by
  rw [gatherMoves]

@[simp] theorem gatherMoves_cons (list : NodeId) (item : Rose) (rest : List Rose) :
    gatherMoves list (item :: rest) =
      (strays rest).map (fun r => .moved r.id list item.id) ++
        gatherMoves list (fromItem rest) := by
  rw [gatherMoves]

/-- The reports of regrouping lists one after another, if items are numbered from `next`
on. -/
def moves (next : Nat) : List Container → List Event
  | [] => []
  | c :: cs =>
    gatherMoves c.id (seeded next c.kids) ++
      moves (if c.headless then next + 1 else next) cs

/-- Lists one after another, each with the number that an item made for it gets, if items are
numbered from `next` on. -/
def numbered (next : Nat) : List Container → List (Nat × Container)
  | [] => []
  | c :: cs => (next, c) :: numbered (if c.headless then next + 1 else next) cs

theorem numbered_append (next : Nat) (cs ds : List Container) :
    numbered next (cs ++ ds) =
      numbered next cs ++ numbered (next + cs.countP Container.headless) ds := by
  induction cs generalizing next with
  | nil => rfl
  | cons c cs ih =>
    rw [List.cons_append, numbered, numbered, ih, List.cons_append]
    cases hc : c.headless with
    | true =>
      have hsum : next + 1 + cs.countP Container.headless =
          next + (cs.countP Container.headless + 1) := by omega
      simp [hc, hsum]
    | false => simp [hc]

theorem map_snd_numbered (next : Nat) (cs : List Container) :
    (numbered next cs).map Prod.snd = cs := by
  induction cs generalizing next with
  | nil => rfl
  | cons c cs ih => rw [numbered, List.map_cons, ih]

theorem exists_mem_numbered (next : Nat) {c : Container} {cs : List Container} (hc : c ∈ cs) :
    ∃ n, (n, c) ∈ numbered next cs := by
  rw [← map_snd_numbered next cs] at hc
  obtain ⟨⟨n, c⟩, hmem, rfl⟩ := List.mem_map.1 hc
  exact ⟨n, hmem⟩

theorem moves_eq_flatMap (next : Nat) (cs : List Container) :
    moves next cs =
      (numbered next cs).flatMap fun q => gatherMoves q.2.id (seeded q.1 q.2.kids) := by
  induction cs generalizing next with
  | nil => rfl
  | cons c cs ih => rw [moves, numbered, List.flatMap_cons, ih]

theorem moves_append (next : Nat) (cs ds : List Container) :
    moves next (cs ++ ds) =
      moves next cs ++ moves (next + cs.countP Container.headless) ds := by
  rw [moves_eq_flatMap, moves_eq_flatMap, moves_eq_flatMap, numbered_append, List.flatMap_append]

end Rose

end DocTree
