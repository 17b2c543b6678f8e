import DocTree.Proofs.Rose
set_option autoImplicit false

/-!
# Rewrite: regrouping as a rewriting of ordered trees

`Rose.regroup` says on ordered trees what regrouping does to the lists of a document, from
the top down: at a list the children are grouped into items (`Rose.regroupKids`), and the
same is then done to the new children from left to right.  Items that are made get the
numbers from `next` on, in the order in which the rewriting comes to them.
-/

namespace DocTree

/-- The payload of an item that is made. -/
def itemPayload : Payload := .element (.html "li") []

/-- The payload of a list. -/
def Payload.isList (p : Payload) : Bool := p.tagName? == some "ul" || p.tagName? == some "ol"

/-- The payload of a list item. -/
def Payload.isItem (p : Payload) : Bool := p.tagName? == some "li"

@[simp] theorem isItem_itemPayload : itemPayload.isItem = true := by decide

/-- No list is an item. -/
theorem Payload.isList_eq_false_of_isItem {p : Payload} (h : p.isItem = true) :
    p.isList = false := by
  unfold isItem at h
  rw [beq_iff_eq] at h
  unfold isList
  rw [h]
  decide

namespace Rose

/-- The root is a list item. -/
def isItem (r : Rose) : Bool := r.payload.isItem

/-- The root is a list. -/
def isList (r : Rose) : Bool := r.payload.isList

/-- Gives a root further children behind its own. -/
def adopt (r : Rose) (more : List Rose) : Rose := node r.id r.payload (r.kids ++ more)

/-! ## One list -/

/-- The trees that stand before the first item. -/
def strays (rs : List Rose) : List Rose := rs.takeWhile fun r => !r.isItem

/-- The trees from the first item on. -/
def fromItem (rs : List Rose) : List Rose := rs.dropWhile fun r => !r.isItem

@[simp] theorem strays_append_fromItem (rs : List Rose) : strays rs ++ fromItem rs = rs :=
  List.takeWhile_append_dropWhile

theorem length_fromItem_le (rs : List Rose) : (fromItem rs).length ≤ rs.length :=
  (List.dropWhile_suffix _).sublist.length_le

/-- Gives each item the strays that stand between it and the next one; the list begins
with an item. -/
def gather : List Rose → List Rose
  | [] => []
  | item :: rest => item.adopt (strays rest) :: gather (fromItem rest)
  termination_by rs => rs.length
  decreasing_by exact Nat.lt_succ_of_le (length_fromItem_le rest)

/-- Groups the children of a list into items.  Strays before the first item go into an
item of their own, numbered `next`, in their place.  Answers the next free number. -/
def regroupKids (next : Nat) (kids : List Rose) : List Rose × Nat :=
  if strays kids = [] then (gather kids, next)
  else (node (.ofNat next) itemPayload (strays kids) :: gather (fromItem kids), next + 1)

/-- The children of a node as the rewriting leaves them at that node: those of a list are
grouped into items, those of other nodes stay. -/
def regroupNode (next : Nat) (payload : Payload) (kids : List Rose) : List Rose × Nat :=
  if payload.isList then regroupKids next kids else (kids, next)

/-! ## Termination

A list may get one more node below it, but this node is no list: counting lists twice
gives a weight that falls from a node to its regrouped children. -/

mutual

/-- The number of nodes of a tree, lists counted twice. -/
def weight : Rose → Nat
  | node _ payload kids => (if payload.isList then 2 else 1) + weightAll kids

/-- The weight of several trees. -/
def weightAll : List Rose → Nat
  | [] => 0
  | r :: rs => r.weight + weightAll rs

end

theorem weight_pos (r : Rose) : 0 < r.weight := by
  cases r
  rw [weight]
  split <;> omega

@[simp] theorem weightAll_append (rs ss : List Rose) :
    weightAll (rs ++ ss) = weightAll rs + weightAll ss := by
  induction rs with
  | nil => rw [List.nil_append, weightAll, Nat.zero_add]
  | cons r rs ih => rw [List.cons_append, weightAll, weightAll, ih, Nat.add_assoc]

@[simp] theorem weight_adopt (r : Rose) (more : List Rose) :
    (r.adopt more).weight = r.weight + weightAll more := by
  cases r with
  | node id payload kids => simp only [adopt, weight, Rose.kids, Rose.payload, weightAll_append,
      Nat.add_assoc]

theorem weightAll_strays_add (rs : List Rose) :
    weightAll (strays rs) + weightAll (fromItem rs) = weightAll rs := by
  rw [← weightAll_append, strays_append_fromItem]

@[simp] theorem weightAll_gather (rs : List Rose) : weightAll (gather rs) = weightAll rs := by
  fun_induction gather rs with
  | case1 => rfl
  | case2 item rest ih =>
    rw [weightAll, weight_adopt, ih, weightAll, Nat.add_assoc, weightAll_strays_add]

theorem weightAll_regroupNode_lt (next : Nat) (id : NodeId) (payload : Payload)
    (kids : List Rose) :
    weightAll (regroupNode next payload kids).1 < (node id payload kids).weight := by
  rw [weight, regroupNode]
  split
  · unfold regroupKids
    split
    · rw [weightAll_gather]
      omega
    · have hitem : itemPayload.isList = false :=
        Payload.isList_eq_false_of_isItem isItem_itemPayload
      have hsum := weightAll_strays_add kids
      rw [weightAll, weight, weightAll_gather, hitem]
      simp only [Bool.false_eq_true, if_false]
      omega
  · dsimp only
    omega

/-! ## The whole tree -/

mutual

/-- Regroups the lists of a tree from the top down.  Answers the next free number. -/
def regroup (next : Nat) : Rose → Rose × Nat
  | node id payload kids =>
    let here := regroupNode next payload kids
    let below := regroupAll here.2 here.1
    (node id payload below.1, below.2)
  termination_by r => (r.weight, 0)
  decreasing_by exact Prod.Lex.left _ _ (weightAll_regroupNode_lt next id payload kids)

/-- Regroups the lists of several trees from left to right. -/
def regroupAll (next : Nat) : List Rose → List Rose × Nat
  | [] => ([], next)
  | r :: rs =>
    let first := regroup next r
    let others := regroupAll first.2 rs
    (first.1 :: others.1, others.2)
  termination_by rs => (weightAll rs, 1)
  decreasing_by
    · rw [weightAll]
      rcases Nat.eq_zero_or_pos (weightAll rs) with h | h
      · rw [h, Nat.add_zero]
        exact Prod.Lex.right _ Nat.zero_lt_one
      · exact Prod.Lex.left _ _ (by omega)
    · rw [weightAll]
      exact Prod.Lex.left _ _ (by have := r.weight_pos; omega)

end

@[simp] theorem regroupAll_nil (next : Nat) : regroupAll next [] = ([], next) := by
  rw [regroupAll]

@[simp] theorem regroupAll_cons (next : Nat) (r : Rose) (rs : List Rose) :
    regroupAll next (r :: rs) =
      ((regroup next r).1 :: (regroupAll (regroup next r).2 rs).1,
        (regroupAll (regroup next r).2 rs).2) := by
  rw [regroupAll]

/-- The trees below a node as the rewriting leaves them. -/
abbrev regroupBelow (next : Nat) (payload : Payload) (kids : List Rose) : List Rose × Nat :=
  regroupAll (regroupNode next payload kids).2 (regroupNode next payload kids).1

@[simp] theorem regroup_node (next : Nat) (id : NodeId) (payload : Payload) (kids : List Rose) :
    regroup next (node id payload kids) =
      (node id payload (regroupBelow next payload kids).1, (regroupBelow next payload kids).2) := by
  rw [regroup]

theorem regroupAll_singleton (next : Nat) (r : Rose) :
    regroupAll next [r] = ([(regroup next r).1], (regroup next r).2) := by
  rw [regroupAll_cons, regroupAll_nil]

/-- Induction along the rewriting: at a node the claim may be used of its regrouped
children and of the trees to its right. -/
theorem regroupAll_induct {motive : Nat → List Rose → Prop} (nil : ∀ next, motive next [])
    (cons : ∀ next id payload kids rs,
      motive (regroupNode next payload kids).2 (regroupNode next payload kids).1 →
      motive (regroup next (node id payload kids)).2 rs →
      motive next (node id payload kids :: rs)) :
    ∀ next rs, motive next rs := by
  intro next rs
  generalize hw : weightAll rs = w
  induction w using Nat.strongRecOn generalizing next rs with
  | ind w ih =>
    cases rs with
    | nil => exact nil next
    | cons r rs =>
      cases r with
      | node id payload kids =>
        have hlt := weightAll_regroupNode_lt next id payload kids
        have hpos := (node id payload kids).weight_pos
        rw [weightAll] at hw
        exact cons next id payload kids rs (ih _ (by omega) _ _ rfl) (ih _ (by omega) _ _ rfl)

/-! ## Roots stay -/

@[simp] theorem id_regroup (next : Nat) (r : Rose) : (regroup next r).1.id = r.id := by
  cases r
  rw [regroup_node]
  rfl

@[simp] theorem payload_regroup (next : Nat) (r : Rose) :
    (regroup next r).1.payload = r.payload := by
  cases r
  rw [regroup_node]
  rfl

@[simp] theorem map_id_regroupAll (next : Nat) (rs : List Rose) :
    (regroupAll next rs).1.map id = rs.map id := by
  induction rs generalizing next with
  | nil => rw [regroupAll_nil]
  | cons r rs ih => rw [regroupAll_cons, List.map_cons, List.map_cons, id_regroup, ih]

/-! ## Numbers and their order -/

@[simp] theorem ids_adopt (r : Rose) (more : List Rose) :
    (r.adopt more).ids = r.ids ++ idsAll more := by
  cases r
  simp only [adopt, ids_node, Rose.kids, Rose.id, idsAll_append, List.cons_append]

theorem idsAll_strays_append (rs : List Rose) :
    idsAll (strays rs) ++ idsAll (fromItem rs) = idsAll rs := by
  rw [← idsAll_append, strays_append_fromItem]

/-- Gathering keeps document order. -/
@[simp] theorem idsAll_gather (rs : List Rose) : idsAll (gather rs) = idsAll rs := by
  fun_induction gather rs with
  | case1 => rfl
  | case2 item rest ih =>
    rw [idsAll_cons, ids_adopt, ih, List.append_assoc, idsAll_strays_append, idsAll_cons]

/-- The number of the item that is made at a node, if one is. -/
def madeAt (next : Nat) (payload : Payload) (kids : List Rose) : List NodeId :=
  if payload.isList ∧ strays kids ≠ [] then [.ofNat next] else []

theorem regroupNode_of_strays (next : Nat) {payload : Payload} {kids : List Rose}
    (hlist : payload.isList = true) (hstrays : strays kids ≠ []) :
    regroupNode next payload kids =
      (node (.ofNat next) itemPayload (strays kids) :: gather (fromItem kids), next + 1) := by
  unfold regroupNode
  rw [if_pos hlist, regroupKids, if_neg hstrays]

/-- At a node a new item may come to stand before all else; the rest keeps its order. -/
theorem idsAll_regroupNode (next : Nat) (payload : Payload) (kids : List Rose) :
    idsAll (regroupNode next payload kids).1 = madeAt next payload kids ++ idsAll kids := by
  unfold regroupNode madeAt
  by_cases hlist : payload.isList
  · by_cases hstrays : strays kids = []
    · simp [hlist, hstrays, regroupKids]
    · simp only [hlist, hstrays, regroupKids, if_true, if_false, true_and, not_false_iff, ne_eq]
      rw [idsAll_cons, ids_node, idsAll_gather, List.cons_append, idsAll_strays_append]
      rfl
  · simp [hlist]

theorem regroupNode_snd (next : Nat) (payload : Payload) (kids : List Rose) :
    (regroupNode next payload kids).2 = next + (madeAt next payload kids).length := by
  unfold regroupNode madeAt
  by_cases hlist : payload.isList
  · by_cases hstrays : strays kids = []
    · simp [hlist, hstrays, regroupKids]
    · simp [hlist, hstrays, regroupKids]
  · simp [hlist]

theorem le_regroupAll (next : Nat) (rs : List Rose) : next ≤ (regroupAll next rs).2 := by
  induction next, rs using regroupAll_induct with
  | nil next => simp only [regroupAll_nil, Nat.le_refl]
  | cons next id payload kids rs ihkids ihrs =>
    have hnode := regroupNode_snd next payload kids
    have hbelow : (regroupNode next payload kids).2 ≤ (regroupBelow next payload kids).2 := ihkids
    rw [regroupAll_cons]
    rw [regroup_node] at ihrs ⊢
    dsimp only at ihrs ⊢
    omega

theorem le_regroupBelow (next : Nat) (payload : Payload) (kids : List Rose) :
    (regroupNode next payload kids).2 ≤ (regroupBelow next payload kids).2 :=
  le_regroupAll _ _

end Rose

end DocTree
