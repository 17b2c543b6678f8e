import DocTree.Proofs.Defects
import DocTree.Proofs.Regroup.Walk
set_option autoImplicit false

/-!
# Pass: regrouping all lists of a document

Where the links have no defect `regroupLists` comes to its end, and the document it leaves
is the one that the rewriting of ordered trees gives (`Tree.Passed`).  It moves nodes and
makes items, but keeps all nodes, their payloads and their order, and it changes a
document only if some child of a list is no item.
-/

namespace DocTree

open DocTree.Tree Rose

variable {t u : Tree} {T : Rose}

/-! ## The run of the pass -/

/-- A tree with defective links is refused. -/
theorem regroupLists_eq_error {d : Defect} (hlinks : t.defect? = some d) (log : Log) :
    regroupLists (t, log) = .error (.malformed d) (t, log) := by
  simp only [regroupLists, bind_apply, Pass.tree_apply, hlinks, throw_apply]

/-- Where the links have no defect the pass does what its walk does, and reports it. -/
theorem regroupLists_eq_ok {log log' : Log} {c : Tally} {rest : List NodeId}
    (hlinks : t.defect? = none)
    (hwalk : walkFrom regroupList walkLimit 0 [.root] (t, log, Tally.zero) =
      .ok rest (u, log', c)) :
    regroupLists (t, log) = .ok () (u, log'.push c.report) := by
  simp [regroupLists, hlinks, walk, hwalk]

/-- What is noted of a pass over the given lists. -/
def passLog (next : Nat) (cs : List Container) (log : Log) : Log :=
  (log ++ (moves next cs).toArray).push
    (.regrouped cs.length (moves next cs).length (cs.countP Container.headless))

/-- The walk through a held document. -/
theorem exists_walkFrom_root (h : t.Holds T) (hroot : T.id = .root) (hnodup : T.ids.Nodup)
    (hroom : t.size + t.headlessLists ≤ NodeId.bound) :
    ∃ u, (∀ s, walkFrom regroupList walkLimit 0 [.root] (t, s) =
        .ok [] (u, noted t.size T.containers s)) ∧ t.Regrouped [T] u := by
  have hsnd := regroupAll_snd t.size [T]
  rw [containersAll_singleton, ← h.headlessLists_eq hroot hnodup] at hsnd
  have hids : (idsAll [T]).Nodup := by rwa [idsAll_singleton]
  have hold : ∀ x ∈ idsAll [T], x.index < t.size := by
    rw [idsAll_singleton]
    exact h.index_lt
  have hlength := h.length_ids_le hnodup
  obtain ⟨u, hrun, hu⟩ := exists_walkFrom t.size [T] t rfl (by simpa using h) hids (by omega)
  have hgrown := @length_idsAll_regroupAll t.size [T] hold (by omega)
  rw [idsAll_singleton] at hrun hgrown
  refine ⟨u, fun s => ?_, hu⟩
  rw [← containersAll_singleton]
  have hvisits : (idsAll (regroupAll t.size [T]).1).length < walkLimit := by
    unfold walkLimit
    omega
  refine walkFrom_eq_ok hvisits fun steps => ?_
  have hsteps := hrun steps 0 [] s (by omega)
  rwa [List.map_singleton, hroot, List.append_nil, Nat.zero_add] at hsteps

/-- The pass over a held document. -/
theorem exists_regroupLists (h : t.Holds T) (hroot : T.id = .root) (hnodup : T.ids.Nodup)
    (hroom : t.size + t.headlessLists ≤ NodeId.bound) :
    ∃ u, (∀ log, regroupLists (t, log) = .ok () (u, passLog t.size T.containers log)) ∧
      t.Regrouped [T] u := by
  obtain ⟨u, hwalk, hu⟩ := exists_walkFrom_root h hroot hnodup hroom
  have hlinks : t.defect? = none := defect?_eq_none_iff_holds.2 ⟨T, h, hnodup, hroot⟩
  refine ⟨u, fun log => ?_, hu⟩
  have hnoted : noted t.size T.containers (log, Tally.zero) =
      (log ++ (moves t.size T.containers).toArray, ⟨T.containers.length,
        (moves t.size T.containers).length, T.containers.countP Container.headless⟩) := by
    simp [noted, account, Tally.zero]
  have hrun := hwalk (log, Tally.zero)
  rw [hnoted] at hrun
  exact regroupLists_eq_ok hlinks hrun

/-! ## The row that the pass leaves -/

/-- `u` is the row that the pass leaves of a row that holds the document `T`. -/
structure Tree.Passed (t : Tree) (T : Rose) (u : Tree) : Prop where
  holds : u.Holds (regroup t.size T).1
  root : (regroup t.size T).1.id = .root
  nodup : (regroup t.size T).1.ids.Nodup
  size : u.size = (regroup t.size T).2
  size_le : u.size ≤ NodeId.bound
  changes : t.Changes u T.ids (inside [T])
  still : t.Tidy → u = t

namespace Tree.Passed

/-- The pass comes to its end where the links have no defect. -/
theorem of_regrouped (h : t.Holds T) (hroot : T.id = .root) (hnodup : T.ids.Nodup)
    (hroom : t.size + t.headlessLists ≤ NodeId.bound) (hu : t.Regrouped [T] u) :
    t.Passed T u := by
  obtain ⟨hholds, hsize, hchanges, hstill⟩ := hu
  have hsnd := regroupAll_snd t.size [T]
  rw [containersAll_singleton, ← h.headlessLists_eq hroot hnodup] at hsnd
  have hids := @nodup_idsAll_regroupAll t.size [T] (by rw [idsAll_singleton]; exact h.index_lt)
    (by omega) (by rwa [idsAll_singleton])
  rw [idsAll_singleton] at hchanges
  rw [containersAll_singleton, ← h.tidy_iff hroot hnodup] at hstill
  rw [regroupAll_singleton] at hholds hsize hsnd hids
  rw [idsAll_singleton] at hids
  exact ⟨hholds _ (List.mem_singleton.2 rfl), (id_regroup _ T).trans hroot, hids, hsize,
    by dsimp only at hsnd; omega, hchanges, hstill⟩

theorem descendants_eq (hu : t.Passed T u) :
    u.descendants .root = (regroup t.size T).1.ids := by
  rw [← hu.root]
  exact hu.holds.descendants_eq hu.nodup

theorem snd_le (hu : t.Passed T u) : (regroupAll t.size [T]).2 ≤ NodeId.bound := by
  rw [regroupAll_singleton]
  exact hu.size ▸ hu.size_le

theorem descendants_eq_idsAll (hu : t.Passed T u) :
    u.descendants .root = idsAll (regroupAll t.size [T]).1 := by
  rw [regroupAll_singleton, idsAll_singleton, hu.descendants_eq]

/-- The old nodes keep their order. -/
theorem filter_descendants (hu : t.Passed T u) (h : t.Holds T) :
    (u.descendants .root).filter (fun x => x.index < t.size) = T.ids := by
  rw [hu.descendants_eq_idsAll, filter_idsAll_regroupAll _ _ _ (Nat.le_refl _) hu.snd_le,
    idsAll_singleton]
  exact List.filter_eq_self.2 fun x hx => decide_eq_true (h.index_lt x hx)

/-- The new nodes are numbered in their order. -/
theorem filter_descendants_new (hu : t.Passed T u) (h : t.Holds T) :
    (u.descendants .root).filter (fun x => t.size ≤ x.index) = numbers t.size u.size := by
  have hold : ∀ x ∈ idsAll [T], x.index < t.size := by
    rw [idsAll_singleton]
    exact h.index_lt
  rw [hu.descendants_eq_idsAll,
    filter_idsAll_regroupAll_new _ _ _ (Nat.le_refl _) hold hu.snd_le, hu.size,
    regroupAll_singleton]

theorem mem_of_mem_numbers (hu : t.Passed T u) (h : t.Holds T) {x : NodeId}
    (hx : x ∈ numbers t.size u.size) : x ∈ u.descendants .root := by
  rw [← hu.filter_descendants_new h] at hx
  exact (List.mem_filter.1 hx).1

/-- All children of lists are items. -/
theorem tidy (hu : t.Passed T u) : u.Tidy := by
  rw [hu.holds.tidy_iff hu.root hu.nodup]
  have hall := isItem_of_mem_regroupAll t.size [T]
  rwa [regroupAll_singleton, containersAll_singleton] at hall

theorem defect?_eq_none (hu : t.Passed T u) : u.defect? = none :=
  defect?_eq_none_iff_holds.2 ⟨_, hu.holds, hu.nodup, hu.root⟩

end Tree.Passed

/-- Where the links have no defect the pass comes to its end. -/
theorem exists_passed (hlinks : t.defect? = none)
    (hroom : t.size + t.headlessLists ≤ NodeId.bound) :
    ∃ T u, t.Holds T ∧ T.id = .root ∧ T.ids.Nodup ∧ t.Passed T u ∧
      ∀ log, regroupLists (t, log) = .ok () (u, passLog t.size T.containers log) := by
  obtain ⟨T, h, hnodup, hroot⟩ := defect?_eq_none_iff_holds.1 hlinks
  obtain ⟨u, hrun, hu⟩ := exists_regroupLists h hroot hnodup hroom
  exact ⟨T, u, h, hroot, hnodup, .of_regrouped h hroot hnodup hroom hu, hrun⟩

/-! ## The document that the pass leaves -/

/-- The document is rewritten as the ordered tree it is, and the items that are made are
numbered in document order. -/
theorem regroupLists_refines (t : Tree) (log : Log) (hlinks : t.defect? = none)
    (hroom : t.size + t.headlessLists ≤ NodeId.bound) :
    ∃ T u log', t.Document T ∧ regroupLists (t, log) = .ok () (u, log') ∧
      u.Document (regroup t.size T).1 ∧ u.size = (regroup t.size T).2 ∧
      (u.descendants .root).filter (fun x => t.size ≤ x.index) = numbers t.size u.size := by
  obtain ⟨T, u, h, hroot, -, hu, hrun⟩ := exists_passed hlinks hroom
  exact ⟨T, u, _, ⟨hroot, h.reads⟩, hrun log, ⟨hu.root, hu.holds.reads⟩, hu.size,
    hu.filter_descendants_new h⟩

/-- A document that is a list of a text and an empty list. -/
def Tree.itemless : Tree where
  nodes := #[
    ⟨.document, none, some (.ofNat 1), some (.ofNat 1), none, none⟩,
    ⟨.element (.html "ul") [], some .root, some (.ofNat 2), some (.ofNat 3), none, none⟩,
    ⟨.text "a", some (.ofNat 1), none, none, none, some (.ofNat 3)⟩,
    ⟨.element (.html "ol") [], some (.ofNat 1), none, none, some (.ofNat 2), none⟩]
  nodes_nonempty := by decide

/-- A document that is one list. -/
def Rose.oneList (kids : List Rose) : Rose :=
  node .root .document [node (.ofNat 1) (.element (.html "ul") []) kids]

/-- The children of the list of `Tree.itemless`. -/
def Rose.loose : List Rose :=
  [node (.ofNat 2) (.text "a") [], node (.ofNat 3) (.element (.html "ol") []) []]

theorem document_itemless : itemless.Document (oneList loose) := by
  refine ⟨rfl, .node _ _ _ rfl ⟨rfl, rfl⟩ ?_⟩
  rw [List.forall_mem_singleton]
  refine .node _ _ _ rfl ⟨rfl, rfl, rfl⟩ ?_
  simp only [loose, List.forall_mem_cons, List.not_mem_nil, false_imp_iff, implies_true, and_true]
  exact ⟨.node _ _ _ rfl rfl (by simp), .node _ _ _ rfl rfl (by simp)⟩

theorem regroup_oneList_loose :
    regroup 4 (oneList loose) =
      (oneList [node (.ofNat 4) (.element (.html "li") []) loose], 5) := by
  simp [oneList, loose, regroupBelow, regroupNode, regroupKids, strays, fromItem, itemPayload,
    Payload.isList, Payload.isItem, Payload.tagName?, Rose.isItem, Rose.payload, QName.html]

/-- Both children come to stand in one new item. -/
theorem regroupLists_refines_itemless :
    itemless.Document (oneList loose) ∧
      ∃ u log', regroupLists (itemless, #[]) = .ok () (u, log') ∧
        u.Document (oneList [node (.ofNat 4) (.element (.html "li") []) loose]) ∧
        u.size = 5 ∧ (u.descendants .root).filter (fun x => 4 ≤ x.index) = [.ofNat 4] := by
  obtain ⟨T, u, log', hT, hrun, hu, hsize, hnew⟩ :=
    regroupLists_refines itemless #[] (by decide +kernel) (by decide +kernel)
  obtain rfl := hT.eq document_itemless
  have hfour : itemless.size = 4 := rfl
  rw [hfour, regroup_oneList_loose] at hu hsize
  rw [hfour, hsize] at hnew
  exact ⟨hT, u, log', hrun, hu, hsize, hnew⟩

/-! ## What the pass keeps -/

namespace Tree.Passed

/-- New numbers belong to new items: each is the first child of a list, and what was the
first child of that list before is its own first child. -/
theorem made (hu : t.Passed T u) (h : t.Holds T) {x : NodeId} (hx : x ∈ numbers t.size u.size) :
    u.payload? x = some itemPayload ∧
      (∃ l ∈ u.descendants .root, u.isList l = true ∧ u.firstChild? l = some x) ∧
      ∃ c ∈ T.ids, u.firstChild? x = some c := by
  have hold : ∀ c ∈ containersAll [T], ∀ k ∈ c.kids, k.id.index < t.size := by
    rw [containersAll_singleton]
    intro c hc k hk
    obtain ⟨-, -, hkids, -⟩ := h.mem_containers c hc
    exact hkids.index_lt (List.mem_map_of_mem hk)
  have hmade := exists_of_mem_numbers t.size t.size [T] hold
  rw [regroupAll_singleton, containersAll_singleton, ← hu.size] at hmade
  obtain ⟨c, hc, first, below, others, hkids, hlt⟩ := hmade x hx
  obtain ⟨hmem, hlist, hhas, hholds⟩ := hu.holds.mem_containers c hc
  have hitem := hholds _ (hkids ▸ List.mem_cons_self)
  rw [hkids] at hhas
  refine ⟨hitem.payload?, ⟨c.id, ?_, hlist, hhas.first⟩, first.id, ?_, hitem.hasKids.first⟩
  · rwa [hu.descendants_eq]
  · -- the first child is attached and has an old number
    obtain ⟨ks, hks, hbelow⟩ := hu.holds.hasKids_of_mem x
      (by rw [← hu.descendants_eq]; exact hu.mem_of_mem_numbers h hx)
    obtain rfl := hks.eq hitem.hasKids
    have hfirst := idsAll_kids_subset_ids _ (hbelow first.id List.mem_cons_self)
    rw [← hu.filter_descendants h, hu.descendants_eq]
    exact List.mem_filter.2 ⟨hfirst, decide_eq_true hlt⟩

/-- Only old nodes are texts. -/
theorem text?_eq (hu : t.Passed T u) (h : t.Holds T) {x : NodeId}
    (hx : x ∈ u.descendants .root) :
    u.text? x = if x.index < t.size then t.text? x else none := by
  unfold Tree.text?
  split
  · next hlt => rw [hu.changes.payload x hlt]
  · next hge =>
    have hxu : x.index < u.size := by
      rw [hu.descendants_eq] at hx
      exact hu.holds.index_lt x hx
    rw [(hu.made h ((mem_numbers hu.size_le).2 ⟨Nat.le_of_not_lt hge, hxu⟩)).1]
    rfl

end Tree.Passed

/-- Nodes are moved, but none is copied, dropped, changed or put out of order.  New nodes
are items, each with an old node for a first child and the first child of a list itself. -/
theorem regroupLists_conserves (t : Tree) (log : Log) (hlinks : t.defect? = none)
    (hroom : t.size + t.headlessLists ≤ NodeId.bound) :
    ∃ u log', regroupLists (t, log) = .ok () (u, log') ∧
      (t.descendants .root).Nodup ∧
      (u.descendants .root).filter (fun x => x.index < t.size) = t.descendants .root ∧
      (∀ x ∈ t.descendants .root, u.payload? x = t.payload? x) ∧
      (u.descendants .root).filterMap u.text? = (t.descendants .root).filterMap t.text? ∧
      ∀ x : NodeId, t.size ≤ x.index → x.index < u.size →
        (u.descendants .root).count x = 1 ∧
        u.payload? x = some (.element (.html "li") []) ∧
        (∃ l ∈ u.descendants .root, u.isList l = true ∧ u.firstChild? l = some x) ∧
        ∃ c ∈ t.descendants .root, u.firstChild? x = some c := by
  obtain ⟨T, u, h, hroot, hnodup, hu, hrun⟩ := exists_passed hlinks hroom
  have hdesc : t.descendants .root = T.ids := hroot ▸ h.descendants_eq hnodup
  have hkept := hu.filter_descendants h
  have hpayload : ∀ x ∈ T.ids, u.payload? x = t.payload? x := fun x hx =>
    hu.changes.payload x (h.index_lt x hx)
  rw [hdesc]
  refine ⟨u, _, hrun log, hnodup, hkept, hpayload, ?_, fun x hlt hgt => ?_⟩
  · rw [← hkept, List.filterMap_filter]
    apply List.filterMap_congr
    intro x hx
    rw [hu.text?_eq h hx]
    simp only [decide_eq_true_eq]
  · have hx : x ∈ numbers t.size u.size := (mem_numbers hu.size_le).2 ⟨hlt, hgt⟩
    obtain ⟨hitem, hlist, hfirst⟩ := hu.made h hx
    have hdistinct : (u.descendants .root).Nodup := by
      rw [hu.descendants_eq]
      exact hu.nodup
    exact ⟨List.count_eq_one_of_mem hdistinct (hu.mem_of_mem_numbers h hx), hitem, hlist,
      hfirst⟩

theorem regroupLists_conserves_itemless :
    ∃ u log', regroupLists (itemless, #[]) = .ok () (u, log') ∧
      (u.descendants .root).filterMap u.text? = ["a"] := by
  obtain ⟨u, log', hrun, -, -, -, htexts, -⟩ :=
    regroupLists_conserves itemless #[] (by decide +kernel) (by decide +kernel)
  refine ⟨u, log', hrun, htexts.trans ?_⟩
  decide +kernel

/-! ## Documents that stay -/

theorem passLog_of_forall_isItem {cs : List Container} (next : Nat) (log : Log)
    (h : ∀ c ∈ cs, ∀ r ∈ c.kids, r.isItem = true) :
    passLog next cs log = log.push (.regrouped cs.length 0 0) := by
  unfold passLog
  rw [moves_eq_nil h, countP_headless_eq_zero h]
  simp

/-- Where all children of attached lists are items the pass changes nothing. -/
theorem regroupLists_of_tidy (hlinks : t.defect? = none) (hsize : t.size ≤ NodeId.bound)
    (htidy : t.Tidy) (log : Log) :
    ∃ n, regroupLists (t, log) = .ok () (t, log.push (.regrouped n 0 0)) := by
  have hnone := htidy.headlessLists_eq_zero
  obtain ⟨T, u, h, hroot, hnodup, hu, hrun⟩ := exists_passed hlinks (by omega)
  have hitems := (h.tidy_iff hroot hnodup).1 htidy
  refine ⟨T.containers.length, ?_⟩
  rw [hrun log, hu.still htidy, passLog_of_forall_isItem _ _ hitems]

/-- After the pass the children of all attached lists are items.  The pass changes nothing
and reports no move exactly if they were before, so a second pass changes nothing. -/
theorem regroupLists_fixed (t : Tree) (log : Log) (hlinks : t.defect? = none)
    (hroom : t.size + t.headlessLists ≤ NodeId.bound) :
    ∃ u log', regroupLists (t, log) = .ok () (u, log') ∧ u.Tidy ∧
      ((u = t ∧ ∃ n, log' = log.push (.regrouped n 0 0)) ↔ t.Tidy) ∧
      ∀ log₂, ∃ n, regroupLists (u, log₂) = .ok () (u, log₂.push (.regrouped n 0 0)) := by
  obtain ⟨T, u, h, hroot, hnodup, hu, hrun⟩ := exists_passed hlinks hroom
  refine ⟨u, _, hrun log, hu.tidy, ⟨?_, fun htidy => ?_⟩,
    regroupLists_of_tidy hu.defect?_eq_none hu.size_le hu.tidy⟩
  · rintro ⟨rfl, -⟩
    exact hu.tidy
  · obtain ⟨n, hn⟩ := regroupLists_of_tidy hlinks (by omega) htidy log
    rw [hrun log] at hn
    injection hn with _ hstate
    obtain ⟨hut, hlog⟩ := Prod.mk.inj hstate
    exact ⟨hut, n, hlog⟩

theorem regroupLists_fixed_itemless :
    ∃ u log', regroupLists (itemless, #[]) = .ok () (u, log') ∧ u.Tidy ∧ u ≠ itemless := by
  obtain ⟨u, log', hrun, htidy, hfixed, -⟩ :=
    regroupLists_fixed itemless #[] (by decide +kernel) (by decide +kernel)
  refine ⟨u, log', hrun, htidy, ?_⟩
  rintro rfl
  have hitem := htidy (.ofNat 1) (by decide +kernel) (by decide +kernel) (.ofNat 2)
    (by decide +kernel)
  exact absurd hitem (by decide +kernel)

end DocTree
