import DocTree.Lists
import DocTree.Proofs.Changes
import DocTree.Proofs.Regroup.Containers
set_option autoImplicit false

/-!
# Attached: the attached lists of a row

The lists of the tree that a row holds at the document are the attached lists of the row
(`Holds.mem_containers`, `Holds.exists_container`).  So what is asked of the former can be
asked of the latter: whether all children of lists are items (`Tree.Tidy`), and how many
lists begin with a child that is none (`Tree.headlessLists`).
-/

namespace DocTree

open DocTree.Tree Rose

variable {t : Tree} {r : Rose}

/-- Lists are the elements `ul` and `ol`, in any namespace. -/
theorem Tree.isList_iff {x : NodeId} :
    t.isList x = true ↔ t.tagName? x = some "ul" ∨ t.tagName? x = some "ol" := by
  unfold Tree.isList
  cases t.tagName? x <;> simp [listTags]

/-- Items are the elements `li`, in any namespace. -/
theorem Tree.isItem_iff {x : NodeId} : t.isItem x = true ↔ t.tagName? x = some "li" := by
  simp [Tree.isItem, isTag, itemTag]

/-- Whether a node is an item can be seen in its payload. -/
theorem Tree.isItem_of_payload? {x : NodeId} {p : Payload} (h : t.payload? x = some p) :
    t.isItem x = p.isItem := by
  rw [Bool.eq_iff_iff, isItem_iff, tagName?, h]
  simp [Payload.isItem]

theorem Tree.isList_of_payload? {x : NodeId} {p : Payload} (h : t.payload? x = some p) :
    t.isList x = p.isList := by
  rw [Bool.eq_iff_iff, isList_iff, tagName?, h]
  simp [Payload.isList]

/-- Whether a node of a held tree is an item can be seen in the row. -/
theorem Tree.Holds.isItem_eq (h : t.Holds r) : t.isItem r.id = r.isItem := by
  cases r
  exact isItem_of_payload? h.payload?

theorem Tree.Holds.isList_eq (h : t.Holds r) : t.isList r.id = r.isList := by
  cases r
  exact isList_of_payload? h.payload?

namespace Tree

/-- All children of attached lists are items. -/
def Tidy (t : Tree) : Prop :=
  ∀ l ∈ t.descendants .root, t.isList l = true → ∀ c ∈ t.children l, t.isItem c = true

/-- The node is a list that begins with a child that is no item. -/
def isHeadless (t : Tree) (l : NodeId) : Bool :=
  t.isList l && (t.firstChild? l).any fun c => !t.isItem c

/-- The number of attached lists that begin with a child that is no item. -/
def headlessLists (t : Tree) : Nat := (t.descendants .root).countP t.isHeadless

/-- Where all children of attached lists are items none begins with another child. -/
theorem Tidy.headlessLists_eq_zero (h : t.Tidy) : t.headlessLists = 0 := by
  unfold headlessLists
  rw [List.countP_eq_zero]
  intro l hl hhead
  unfold isHeadless at hhead
  obtain ⟨hlist, hfirst⟩ := Bool.and_eq_true_iff.1 hhead
  cases hc : t.firstChild? l with
  | none =>
    rw [hc] at hfirst
    cases hfirst
  | some c =>
    have hmem : c ∈ t.children l := by
      apply List.mem_of_head?
      unfold children
      rw [head?_chain t (Nat.succ_pos _), hc]
    rw [hc, Option.any_some, h l hl hlist c hmem] at hfirst
    cases hfirst

/-! ## Lists of a held tree -/

/-- The lists of a held tree are lists of the row. -/
theorem Holds.mem_containers (h : t.Holds r) : ∀ c ∈ r.containers,
    c.id ∈ r.ids ∧ t.isList c.id = true ∧ t.HasKids c.id (c.kids.map Rose.id) ∧
      ∀ k ∈ c.kids, t.Holds k := by
  induction r using Rose.induct with
  | node id payload kids ih =>
    intro c hc
    rw [containers_node] at hc
    rcases List.mem_append.1 hc with hc | hc
    · unfold containerAt at hc
      split at hc
      · next hlist =>
        rw [List.mem_singleton.1 hc]
        exact ⟨List.mem_cons_self, h.isList_eq.trans hlist, h.hasKids, h.kid⟩
      · exact absurd hc List.not_mem_nil
    · obtain ⟨k, hk, hck⟩ := mem_containersAll.1 hc
      obtain ⟨hmem, hrest⟩ := ih k hk (h.kid k hk) c hck
      exact ⟨List.mem_cons_of_mem _ (mem_idsAll.2 ⟨k, hk, hmem⟩), hrest⟩

/-- The lists of the row among the nodes of a held tree are lists of the tree. -/
theorem Holds.exists_container (h : t.Holds r) : ∀ l ∈ r.ids, t.isList l = true →
    ∃ c ∈ r.containers, c.id = l := by
  induction r using Rose.induct with
  | node id payload kids ih =>
    intro l hl hlist
    rw [containers_node]
    rcases List.mem_cons.1 hl with rfl | hl
    · have hpayload : payload.isList = true := h.isList_eq.symm.trans hlist
      refine ⟨⟨l, kids⟩, List.mem_append_left _ ?_, rfl⟩
      unfold containerAt
      rw [if_pos hpayload]
      exact List.mem_singleton.2 rfl
    · obtain ⟨k, hk, hlk⟩ := mem_idsAll.1 hl
      obtain ⟨c, hc, hid⟩ := ih k hk (h.kid k hk) l hlk hlist
      exact ⟨c, List.mem_append_right _ (mem_containersAll.2 ⟨k, hk, hc⟩), hid⟩

/-- The lists of a held tree are those of its nodes that are lists of the row, in document
order. -/
theorem Holds.map_id_containers (h : t.Holds r) :
    r.containers.map Container.id = r.ids.filter t.isList := by
  induction r using Rose.induct with
  | node id payload kids ih =>
    have hlist : t.isList id = payload.isList := h.isList_eq
    have hbelow : (containersAll kids).map Container.id = (idsAll kids).filter t.isList := by
      rw [containersAll_eq_flatMap, idsAll_eq_flatMap, List.map_flatMap, List.filter_flatMap]
      exact List.flatMap_congr fun k hk => ih k hk (h.kid k hk)
    rw [containers_node, ids_node, List.map_append, hbelow, List.filter_cons, hlist, containerAt]
    cases payload.isList with
    | false => rfl
    | true => rfl

/-- A row is tidy if the children of all lists of its tree are items. -/
theorem Holds.tidy_iff (h : t.Holds r) (hroot : r.id = .root) (hnodup : r.ids.Nodup) :
    t.Tidy ↔ ∀ c ∈ r.containers, ∀ k ∈ c.kids, k.isItem = true := by
  unfold Tidy
  rw [h.descendants_root hroot hnodup]
  constructor
  · intro htidy c hc k hk
    obtain ⟨hmem, hlist, hkids, hholds⟩ := h.mem_containers c hc
    rw [← (hholds k hk).isItem_eq]
    apply htidy c.id hmem hlist
    rw [hkids.children_eq]
    exact List.mem_map_of_mem hk
  · intro hall l hl hlist x hx
    obtain ⟨c, hc, rfl⟩ := h.exists_container l hl hlist
    obtain ⟨-, -, hkids, hholds⟩ := h.mem_containers c hc
    rw [hkids.children_eq] at hx
    obtain ⟨k, hk, rfl⟩ := List.mem_map.1 hx
    rw [(hholds k hk).isItem_eq]
    exact hall c hc k hk

/-- A node of the row is a headless list if it is one in the tree. -/
theorem Holds.isHeadless_eq {id : NodeId} {payload : Payload} {kids : List Rose}
    (h : t.Holds (.node id payload kids)) :
    t.isHeadless id = (payload.isList && Container.headless ⟨id, kids⟩) := by
  have hlist : t.isList id = payload.isList := h.isList_eq
  unfold isHeadless Container.headless
  rw [hlist, h.hasKids.first]
  cases kids with
  | nil => rfl
  | cons k ks =>
    have hk : t.isItem k.id = k.isItem := (h.kid k List.mem_cons_self).isItem_eq
    simp [hk]

/-- Headless lists of a held tree, counted in the row. -/
theorem Holds.countP_isHeadless (h : t.Holds r) :
    r.ids.countP t.isHeadless = r.containers.countP Container.headless := by
  induction r using Rose.induct with
  | node id payload kids ih =>
    have hhere : (if t.isHeadless id = true then 1 else 0) =
        (containerAt id payload kids).countP Container.headless := by
      rw [h.isHeadless_eq]
      unfold containerAt
      cases payload.isList with
      | false => rfl
      | true => simp
    have hbelow : (idsAll kids).countP t.isHeadless =
        (containersAll kids).countP Container.headless := by
      have hkids := fun k hk => ih k hk (h.kid k hk)
      clear ih hhere h
      induction kids with
      | nil => rfl
      | cons k ks ihks =>
        rw [idsAll_cons, containersAll_cons, List.countP_append, List.countP_append,
          hkids k List.mem_cons_self, ihks fun k hk => hkids k (List.mem_cons_of_mem _ hk)]
    rw [ids_node, containers_node, List.countP_cons, List.countP_append, hhere, hbelow,
      Nat.add_comm]

theorem Holds.headlessLists_eq (h : t.Holds r) (hroot : r.id = .root) (hnodup : r.ids.Nodup) :
    t.headlessLists = r.containers.countP Container.headless := by
  unfold headlessLists
  rw [h.descendants_root hroot hnodup, h.countP_isHeadless]

end Tree

end DocTree
