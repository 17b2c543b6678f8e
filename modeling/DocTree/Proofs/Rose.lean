import DocTree.Proofs.Kids
import Mathlib.Data.List.Flatten
set_option autoImplicit false

/-!
# Rose: the ordered tree that links hold

A `Rose` is an ordered tree whose nodes carry a number and a payload.  `t.Reads r` says
that reading `t` downwards from the number of `r`, by first children and next siblings,
gives exactly `r`; `t.Holds r` says that in addition all links inside `r` are
consistent.  What is held is read (`Holds.reads`), and a number reads as one tree only
(`Reads.eq`).
-/

namespace DocTree

/-- An ordered tree of numbered payloads. -/
inductive Rose where
  | node (id : NodeId) (payload : Payload) (kids : List Rose)

namespace Rose

/-- Induction in which the claim may be used of all children. -/
@[elab_as_elim]
theorem induct {motive : Rose → Prop}
    (node : ∀ id payload kids, (∀ k ∈ kids, motive k) → motive (node id payload kids)) :
    ∀ r, motive r
  | .node id payload kids => node id payload kids (all kids)
where
  all : ∀ kids : List Rose, ∀ k ∈ kids, motive k
    | [], _, h => absurd h List.not_mem_nil
    | r :: rs, k, h => by
      cases h with
      | head => exact induct node r
      | tail _ h => exact all rs k h

def id : Rose → NodeId
  | node id _ _ => id

def payload : Rose → Payload
  | node _ payload _ => payload

def kids : Rose → List Rose
  | node _ _ kids => kids

mutual

/-- The numbers of a tree in document order. -/
def ids : Rose → List NodeId
  | node id _ kids => id :: idsAll kids

/-- The numbers of several trees, one tree after another. -/
def idsAll : List Rose → List NodeId
  | [] => []
  | r :: rs => r.ids ++ idsAll rs

end

@[simp] theorem ids_node (id : NodeId) (payload : Payload) (kids : List Rose) :
    (node id payload kids).ids = id :: idsAll kids := rfl

theorem ids_eq (r : Rose) : r.ids = r.id :: idsAll r.kids := by
  cases r
  rfl

@[simp] theorem idsAll_nil : idsAll [] = [] := rfl

@[simp] theorem idsAll_cons (r : Rose) (rs : List Rose) :
    idsAll (r :: rs) = r.ids ++ idsAll rs := rfl

theorem idsAll_singleton (r : Rose) : idsAll [r] = r.ids := by
  rw [idsAll_cons, idsAll_nil, List.append_nil]

theorem idsAll_eq_flatMap (rs : List Rose) : idsAll rs = rs.flatMap ids := by
  induction rs with
  | nil => rfl
  | cons r rs ih => rw [idsAll_cons, ih, List.flatMap_cons]

@[simp] theorem idsAll_append (rs ss : List Rose) : idsAll (rs ++ ss) = idsAll rs ++ idsAll ss := by
  rw [idsAll_eq_flatMap, idsAll_eq_flatMap, idsAll_eq_flatMap, List.flatMap_append]

theorem idsAll_perm {rs ss : List Rose} (h : rs.Perm ss) : (idsAll rs).Perm (idsAll ss) := by
  rw [idsAll_eq_flatMap, idsAll_eq_flatMap]
  exact h.flatMap_right ids

theorem mem_idsAll {x : NodeId} {rs : List Rose} : x ∈ idsAll rs ↔ ∃ r ∈ rs, x ∈ r.ids := by
  rw [idsAll_eq_flatMap, List.mem_flatMap]

theorem ids_sublist_idsAll {r : Rose} {rs : List Rose} (h : r ∈ rs) :
    r.ids.Sublist (idsAll rs) := by
  obtain ⟨left, right, rfl⟩ := List.append_of_mem h
  rw [idsAll_append, idsAll_cons]
  exact (List.sublist_append_left _ _).trans (List.sublist_append_right _ _)

@[simp] theorem id_mem_ids (r : Rose) : r.id ∈ r.ids := by
  cases r
  exact List.mem_cons_self

theorem idsAll_kids_subset_ids (r : Rose) : idsAll r.kids ⊆ r.ids := by
  cases r
  exact List.subset_cons_self _ _

theorem map_id_subset_idsAll (rs : List Rose) : rs.map id ⊆ idsAll rs := by
  intro x hx
  obtain ⟨r, hr, rfl⟩ := List.mem_map.1 hx
  exact mem_idsAll.2 ⟨r, hr, r.id_mem_ids⟩

end Rose

namespace Tree

variable {t u : Tree}

/-! ## Reading downwards -/

/-- The sibling chain that begins at `start` is exactly the given list. -/
def Follows (t : Tree) : Option NodeId → List NodeId → Prop
  | start, [] => start = none
  | start, c :: cs => start = some c ∧ t.Follows (t.nextSibling? c) cs

/-- Reading downwards by first children and next siblings gives exactly this tree. -/
inductive Reads (t : Tree) : Rose → Prop where
  | node (id : NodeId) (payload : Payload) (kids : List Rose)
    (hpayload : t.payload? id = some payload)
    (hkids : t.Follows (t.firstChild? id) (kids.map Rose.id))
    (hbelow : ∀ k ∈ kids, t.Reads k) : t.Reads (.node id payload kids)

theorem Follows.eq {start : Option NodeId} {ks ls : List NodeId} (h : t.Follows start ks)
    (h' : t.Follows start ls) : ks = ls := by
  induction ks generalizing start ls with
  | nil =>
    cases ls with
    | nil => rfl
    | cons d ds => exact absurd (h.symm.trans h'.1) (by simp)
  | cons c cs ih =>
    cases ls with
    | nil => exact absurd (h'.symm.trans h.1) (by simp)
    | cons d ds =>
      obtain rfl := Option.some.inj (h.1.symm.trans h'.1)
      rw [ih h.2 h'.2]

/-- Reading downwards from the document gives exactly this tree. -/
def Document (t : Tree) (r : Rose) : Prop := r.id = .root ∧ t.Reads r

/-- Two lists of trees with the same roots are equal if the trees agree root by root. -/
theorem eq_of_map_id_eq {rs ss : List Rose} (hmap : rs.map Rose.id = ss.map Rose.id)
    (h : ∀ r ∈ rs, ∀ s ∈ ss, r.id = s.id → r = s) : rs = ss := by
  induction rs generalizing ss with
  | nil => exact (List.map_eq_nil_iff.1 hmap.symm).symm
  | cons r rs ih =>
    cases ss with
    | nil => simp at hmap
    | cons s ss =>
      rw [List.map_cons, List.map_cons, List.cons.injEq] at hmap
      rw [h r List.mem_cons_self s List.mem_cons_self hmap.1]
      rw [ih hmap.2 fun r' hr s' hs =>
        h r' (List.mem_cons_of_mem _ hr) s' (List.mem_cons_of_mem _ hs)]

/-- A number reads as one tree only. -/
theorem Reads.eq {r s : Rose} (hr : t.Reads r) (hs : t.Reads s) (hid : r.id = s.id) : r = s := by
  induction r using Rose.induct generalizing s with
  | node id payload kids ih =>
    cases hr with
    | node _ _ _ hp hk hb =>
      cases hs with
      | node id' payload' kids' hp' hk' hb' =>
        obtain rfl : id = id' := hid
        obtain rfl := Option.some.inj (hp.symm.trans hp')
        have hkids := eq_of_map_id_eq (hk.eq hk') fun k hkm k' hkm' =>
          ih k hkm (hb k hkm) (hb' k' hkm')
        rw [hkids]

/-- A row is the row of one document. -/
theorem Document.eq {r s : Rose} (hr : t.Document r) (hs : t.Document s) : r = s :=
  hr.2.eq hs.2 (hr.1.trans hs.1.symm)

/-! ## Holding a tree -/

/-- The links hold this tree: they agree with it downwards, upwards and sideways.
Nothing is said of the parent and the siblings of its root. -/
inductive Holds (t : Tree) : Rose → Prop where
  | node (id : NodeId) (payload : Payload) (kids : List Rose)
    (hpayload : t.payload? id = some payload) (hkids : t.HasKids id (kids.map Rose.id))
    (hbelow : ∀ k ∈ kids, t.Holds k) : t.Holds (.node id payload kids)

theorem HasKids.follows {p : NodeId} {ks : List NodeId} (h : t.HasKids p ks) :
    t.Follows (t.firstChild? p) ks := by
  have hgen : ∀ (right left : List NodeId), ks = left ++ right → t.Follows right.head? right := by
    intro right
    induction right with
    | nil => exact fun _ _ => rfl
    | cons c cs ih =>
      intro left hsplit
      refine ⟨rfl, ?_⟩
      rw [h.nextSibling? hsplit]
      exact ih (left ++ [c]) (by rw [hsplit, List.append_assoc, List.singleton_append])
  rw [h.first]
  exact hgen ks [] rfl

theorem index_lt_of_payload? {x : NodeId} {p : Payload} (h : t.payload? x = some p) :
    x.index < t.size := by
  obtain ⟨n, hn, -⟩ := Option.map_eq_some_iff.1 h
  exact exists_node?_iff.1 ⟨n, hn⟩

namespace Holds

variable {r : Rose} {id : NodeId} {payload : Payload} {kids : List Rose}

theorem payload? (h : t.Holds (.node id payload kids)) : t.payload? id = some payload := by
  cases h with
  | node _ _ _ hpayload _ _ => exact hpayload

theorem hasKids (h : t.Holds (.node id payload kids)) : t.HasKids id (kids.map Rose.id) := by
  cases h with
  | node _ _ _ _ hkids _ => exact hkids

theorem kid (h : t.Holds (.node id payload kids)) : ∀ k ∈ kids, t.Holds k := by
  cases h with
  | node _ _ _ _ _ hbelow => exact hbelow

/-- What is held is read. -/
theorem reads (h : t.Holds r) : t.Reads r := by
  induction r using Rose.induct with
  | node id payload kids ih =>
    exact .node id payload kids h.payload? h.hasKids.follows fun k hk => ih k hk (h.kid k hk)

theorem index_lt (h : t.Holds r) : ∀ x ∈ r.ids, x.index < t.size := by
  induction r using Rose.induct with
  | node id payload kids ih =>
    intro x hx
    rcases List.mem_cons.1 hx with rfl | hx
    · exact index_lt_of_payload? h.payload?
    · obtain ⟨k, hk, hxk⟩ := Rose.mem_idsAll.1 hx
      exact ih k hk (h.kid k hk) x hxk

/-- A tree whose numbers are distinct has at most as many nodes as the row. -/
theorem length_ids_le (h : t.Holds r) (hnodup : r.ids.Nodup) : r.ids.length ≤ t.size :=
  length_le_size_of_nodup hnodup h.index_lt

/-- Every node of the tree has a child list, and its children are nodes below the root. -/
theorem hasKids_of_mem (h : t.Holds r) :
    ∀ x ∈ r.ids, ∃ ks, t.HasKids x ks ∧ ∀ c ∈ ks, c ∈ Rose.idsAll r.kids := by
  induction r using Rose.induct with
  | node id payload kids ih =>
    intro x hx
    rcases List.mem_cons.1 hx with rfl | hx
    · exact ⟨_, h.hasKids, fun c hc => Rose.map_id_subset_idsAll kids hc⟩
    · obtain ⟨k, hk, hxk⟩ := Rose.mem_idsAll.1 hx
      obtain ⟨ks, hks, hbelow⟩ := ih k hk (h.kid k hk) x hxk
      exact ⟨ks, hks, fun c hc => Rose.mem_idsAll.2
        ⟨k, hk, k.idsAll_kids_subset_ids (hbelow c hc)⟩⟩

theorem hasKids_children (h : t.Holds r) {x : NodeId} (hx : x ∈ r.ids) :
    t.HasKids x (t.children x) := by
  obtain ⟨ks, hks, -⟩ := h.hasKids_of_mem x hx
  rwa [hks.children_eq]

/-- Every node below the root is a child of a node of the tree. -/
theorem exists_hasKids_of_mem (h : t.Holds r) :
    ∀ x ∈ Rose.idsAll r.kids, ∃ p ∈ r.ids, ∃ ks, t.HasKids p ks ∧ x ∈ ks := by
  induction r using Rose.induct with
  | node id payload kids ih =>
    intro x hx
    obtain ⟨k, hk, hxk⟩ := Rose.mem_idsAll.1 hx
    rcases List.mem_cons.1 (k.ids_eq ▸ hxk) with rfl | hxk
    · exact ⟨id, List.mem_cons_self, _, h.hasKids, List.mem_map_of_mem hk⟩
    · obtain ⟨p, hp, hkids⟩ := ih k hk (h.kid k hk) x hxk
      exact ⟨p, List.mem_cons_of_mem _ (Rose.mem_idsAll.2 ⟨k, hk, hp⟩), hkids⟩

/-- Below every node of a held tree hangs a held tree. -/
theorem exists_holds_of_mem (h : t.Holds r) {x : NodeId} (hx : x ∈ r.ids) :
    ∃ s, s.id = x ∧ t.Holds s ∧ s.ids.Sublist r.ids := by
  induction r using Rose.induct with
  | node id payload kids ih =>
    rcases List.mem_cons.1 hx with rfl | hx
    · exact ⟨_, rfl, h, .refl _⟩
    · obtain ⟨k, hk, hxk⟩ := Rose.mem_idsAll.1 hx
      obtain ⟨s, hid, hs, hsub⟩ := ih k hk (h.kid k hk) hxk
      exact ⟨s, hid, hs, (hsub.trans (Rose.ids_sublist_idsAll hk)).cons _⟩

/-- A tree stays held where the payloads and the child lists of its nodes stay. -/
theorem imp (h : t.Holds r) (hpayload : ∀ x ∈ r.ids, u.payload? x = t.payload? x)
    (hkids : ∀ x ∈ r.ids, ∀ ks, t.HasKids x ks → u.HasKids x ks) : u.Holds r := by
  induction r using Rose.induct with
  | node id payload kids ih =>
    have hid : id ∈ (Rose.node id payload kids).ids := List.mem_cons_self
    refine .node id payload kids ((hpayload id hid).trans h.payload?) (hkids id hid _ h.hasKids)
      fun k hk => ?_
    have hbelow : ∀ x ∈ k.ids, x ∈ (Rose.node id payload kids).ids := fun x hx =>
      List.mem_cons_of_mem _ (Rose.mem_idsAll.2 ⟨k, hk, hx⟩)
    exact ih k hk (h.kid k hk) (fun x hx => hpayload x (hbelow x hx))
      fun x hx => hkids x (hbelow x hx)

end Holds

/-! ## Document order -/

/-- Document order below the roots of held trees is the order of these trees. -/
theorem preorder_eq_idsAll {rs : List Rose} {limit : Nat} (h : ∀ r ∈ rs, t.Holds r)
    (hlimit : (Rose.idsAll rs).length ≤ limit) :
    t.preorder limit (rs.map Rose.id) = Rose.idsAll rs := by
  induction limit generalizing rs with
  | zero =>
    have hnil : Rose.idsAll rs = [] := List.length_eq_zero_iff.1 (Nat.le_zero.1 hlimit)
    rw [hnil]
    rfl
  | succ limit ih =>
    cases rs with
    | nil => rfl
    | cons r rs =>
      cases r with
      | node id payload kids =>
        have hr := h _ List.mem_cons_self
        have hall : ∀ s ∈ kids ++ rs, t.Holds s := fun s hs =>
          (List.mem_append.1 hs).elim (hr.kid s) fun hs => h s (List.mem_cons_of_mem _ hs)
        rw [Rose.idsAll_cons, Rose.ids_node, List.cons_append, ← Rose.idsAll_append] at hlimit ⊢
        rw [List.map_cons]
        change t.preorder (limit + 1) (id :: rs.map Rose.id) = _
        rw [preorder_succ_cons, hr.hasKids.children_eq, ← List.map_append, ih hall]
        exact Nat.le_of_succ_le_succ hlimit

theorem Holds.descendants_eq {r : Rose} (h : t.Holds r) (hnodup : r.ids.Nodup) :
    t.descendants r.id = r.ids := by
  have hall := @preorder_eq_idsAll t [r] t.size (by simpa using h)
    (by simpa [Rose.idsAll] using h.length_ids_le hnodup)
  simpa [Rose.idsAll, descendants] using hall

/-- The attached nodes of a row that holds a document are those of the document. -/
theorem Holds.descendants_root {r : Rose} (h : t.Holds r) (hroot : r.id = .root)
    (hnodup : r.ids.Nodup) : t.descendants .root = r.ids :=
  hroot ▸ h.descendants_eq hnodup

end Tree

end DocTree
