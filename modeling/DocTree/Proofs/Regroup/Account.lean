import DocTree.Proofs.Regroup.Frame
import Mathlib.Data.List.Forall2
import Mathlib.Data.List.TakeWhile
set_option autoImplicit false

/-!
# Account: what the pass reports

The reports of a pass can be told from the document before it.  Its strays are the children
of attached lists that are no items (`Tree.strayKids`); there is one report for each, in their
order, and the counts of the last report are counts of the document before the pass
(`regroupLists_account`).

The document itself may be a child too, of a list that is not attached.  It is never moved,
so it is left out of the count of strays.
-/

namespace DocTree

open DocTree.Tree Rose

namespace Tree

/-- The children of attached lists that are no items, each with its list: the lists in
document order, the children of one list in their own order. -/
def strayKids (t : Tree) : List (NodeId × NodeId) :=
  ((t.descendants .root).filter t.isList).flatMap fun l =>
    ((t.children l).filter fun c => !t.isItem c).map fun c => (c, l)

theorem map_fst_strayKids (t : Tree) :
    t.strayKids.map Prod.fst =
      ((t.descendants .root).filter t.isList).flatMap fun l =>
        (t.children l).filter fun c => !t.isItem c := by
  unfold strayKids
  rw [List.map_flatMap]
  refine List.flatMap_congr fun l _ => ?_
  rw [List.map_map]
  exact List.map_id _

/-- The node is no item, but its parent is a list. -/
def isStray (t : Tree) (c : NodeId) : Bool := !t.isItem c && (t.parent? c).any t.isList

/-- The report names a node, its parent in `t` and an item that is its parent in `u`. -/
def Reports (t u : Tree) (stray : NodeId × NodeId) (e : Event) : Prop :=
  ∃ item, e = .moved stray.1 stray.2 item ∧ t.parent? stray.1 = some stray.2 ∧
    u.parent? stray.1 = some item ∧ u.isItem item = true

end Tree

/-! ## Reports of one list -/

namespace Rose

/-- The children of a list that are no items. -/
def misplaced (rs : List Rose) : List Rose := rs.filter fun r => !r.isItem

theorem misplaced_append (rs ss : List Rose) :
    misplaced (rs ++ ss) = misplaced rs ++ misplaced ss := List.filter_append rs ss

theorem misplaced_strays (rs : List Rose) : misplaced (strays rs) = strays rs :=
  List.filter_eq_self.2 fun _ => List.mem_takeWhile_imp

theorem misplaced_seeded (next : Nat) (kids : List Rose) :
    misplaced (seeded next kids) = misplaced kids := by
  have hitem : (node (.ofNat next) itemPayload []).isItem = true := isItem_itemPayload
  unfold seeded
  split
  · rfl
  · simp [misplaced, hitem]

/-- Each child that is no item is reported once, with the item that takes it in. -/
theorem forall₂_gatherMoves (list : NodeId) {rs : List Rose} (hrs : strays rs = []) :
    List.Forall₂ (fun k e => ∃ g ∈ gather rs, k ∈ g.kids ∧ e = .moved k.id list g.id)
      (misplaced rs) (gatherMoves list rs) := by
  fun_induction gather rs with
  | case1 =>
    rw [gatherMoves_nil]
    exact .nil
  | case2 item rest ih =>
    have hsplit : misplaced (item :: rest) = strays rest ++ misplaced (fromItem rest) := by
      have hitem := isItem_of_strays_eq_nil hrs
      rw [← misplaced_strays rest, ← misplaced_append, strays_append_fromItem]
      simp [misplaced, hitem]
    rw [hsplit, gatherMoves_cons]
    refine List.rel_append ?_ ((ih (strays_fromItem rest)).imp ?_)
    · rw [List.forall₂_map_right_iff, List.forall₂_same]
      exact fun k hk => ⟨_, List.mem_cons_self, List.mem_append_right _ hk, rfl⟩
    · rintro k e ⟨g, hg, hreport⟩
      exact ⟨g, List.mem_cons_of_mem _ hg, hreport⟩

end Rose

variable {t u : Tree} {T : Rose}

/-! ## Strays of a held tree -/

namespace Tree.Holds

theorem map_id_misplaced {ks : List Rose} (h : ∀ k ∈ ks, t.Holds k) :
    (misplaced ks).map Rose.id = (ks.map Rose.id).filter fun c => !t.isItem c := by
  rw [List.filter_map]
  congr 1
  exact List.filter_congr fun k hk => by rw [Function.comp_apply, (h k hk).isItem_eq]

section Document

variable (h : t.Holds T) (hroot : T.id = .root) (hnodup : T.ids.Nodup)

include h hroot hnodup

/-- The strays of a held document are found at the lists of its tree. -/
theorem strayKids_eq :
    t.strayKids = T.containers.flatMap fun c => (misplaced c.kids).map fun k => (k.id, c.id) := by
  unfold strayKids
  rw [h.descendants_root hroot hnodup, ← h.map_id_containers, List.flatMap_map]
  refine List.flatMap_congr fun c hc => ?_
  obtain ⟨-, -, hkids, hholds⟩ := h.mem_containers c hc
  rw [hkids.children_eq, ← map_id_misplaced hholds, List.map_map]
  rfl

/-- A stray is no item and has the list it is paired with for a parent. -/
theorem parent?_of_mem_strayKids {c l : NodeId} (hc : (c, l) ∈ t.strayKids) :
    c ∈ idsAll T.kids ∧ t.isItem c = false ∧ t.isList l = true ∧ t.parent? c = some l := by
  unfold strayKids at hc
  rw [h.descendants_root hroot hnodup] at hc
  obtain ⟨list, hlist, hpair⟩ := List.mem_flatMap.1 hc
  obtain ⟨kid, hkid, heq⟩ := List.mem_map.1 hpair
  obtain ⟨rfl, rfl⟩ := Prod.mk.inj heq
  obtain ⟨hmem, hlist⟩ := List.mem_filter.1 hlist
  obtain ⟨hkid, hitem⟩ := List.mem_filter.1 hkid
  obtain ⟨ks, hkids, hbelow⟩ := h.hasKids_of_mem list hmem
  rw [hkids.children_eq] at hkid
  exact ⟨hbelow kid hkid, by simpa using hitem, hlist, hkids.parent? hkid⟩

theorem exists_mem_strayKids {c : NodeId} (hc : c ∈ idsAll T.kids)
    (hstray : t.isStray c = true) : ∃ l, (c, l) ∈ t.strayKids := by
  obtain ⟨hitem, hparent⟩ := Bool.and_eq_true_iff.1 hstray
  obtain ⟨l, hl, ks, hkids, hmem⟩ := h.exists_hasKids_of_mem c hc
  rw [hkids.parent? hmem, Option.any_some] at hparent
  refine ⟨l, List.mem_flatMap.2 ⟨l, ?_, List.mem_map_of_mem ?_⟩⟩
  · rw [h.descendants_root hroot hnodup]
    exact List.mem_filter.2 ⟨hl, hparent⟩
  · rw [hkids.children_eq]
    exact List.mem_filter.2 ⟨hmem, hitem⟩

theorem nodup_strayKids : (t.strayKids.map Prod.fst).Nodup := by
  rw [map_fst_strayKids, h.descendants_root hroot hnodup]
  have hkids : ∀ l ∈ T.ids.filter t.isList, t.HasKids l (t.children l) := fun l hl =>
    h.hasKids_children (List.mem_filter.1 hl).1
  refine List.nodup_flatMap.2 ⟨fun l hl => (hkids l hl).nodup.filter _, ?_⟩
  -- no node is a child of two lists
  refine (hnodup.filter t.isList).imp_of_mem fun {l m} hl hm hlm c hcl hcm => ?_
  exact (hkids l hl).not_mem_of_ne (hkids m hm) hlm (List.mem_filter.1 hcl).1
    (List.mem_filter.1 hcm).1

/-- The strays are the nodes below the document that are no items but have a list for a
parent. -/
theorem strayKids_perm :
    (t.strayKids.map Prod.fst).Perm (((t.descendants .root).erase .root).filter t.isStray) := by
  have hbelow : (t.descendants .root).erase .root = idsAll T.kids := by
    rw [h.descendants_root hroot hnodup, T.ids_eq, hroot, List.erase_cons_head]
  rw [hbelow]
  have hdistinct : (idsAll T.kids).Nodup := by
    rw [T.ids_eq] at hnodup
    exact hnodup.of_cons
  refine (List.perm_ext_iff_of_nodup (h.nodup_strayKids hroot hnodup) (hdistinct.filter _)).2
    fun c => ⟨fun hc => ?_, fun hc => ?_⟩
  · obtain ⟨⟨c, l⟩, hpair, rfl⟩ := List.mem_map.1 hc
    obtain ⟨hmem, hitem, hlist, hparent⟩ := h.parent?_of_mem_strayKids hroot hnodup hpair
    exact List.mem_filter.2 ⟨hmem, by simp [isStray, hitem, hparent, hlist]⟩
  · obtain ⟨hmem, hstray⟩ := List.mem_filter.1 hc
    obtain ⟨l, hpair⟩ := h.exists_mem_strayKids hroot hnodup hmem hstray
    exact List.mem_map.2 ⟨_, hpair, rfl⟩

end Document

end Tree.Holds

/-! ## Reports of the pass -/

namespace Tree.Passed

/-- The reports of one list tell of its strays. -/
theorem forall₂_reports_gatherMoves (hu : t.Passed T u) (h : t.Holds T) {n : Nat} {c : Container}
    (hq : (n, c) ∈ numbered t.size T.containers) :
    List.Forall₂ (t.Reports u) ((misplaced c.kids).map fun k => (k.id, c.id))
      (gatherMoves c.id (seeded n c.kids)) := by
  have hc : c ∈ T.containers := by
    rw [← map_snd_numbered t.size T.containers]
    exact List.mem_map_of_mem hq
  obtain ⟨-, -, hkids, -⟩ := h.mem_containers c hc
  have hmoves := forall₂_gatherMoves c.id (strays_seeded n c.kids)
  rw [misplaced_seeded] at hmoves
  rw [← containersAll_singleton] at hq
  have hgroups := (families_of_numbered t.size [T] _ hq).2
  rw [regroupKids_eq] at hgroups
  rw [List.forall₂_map_left_iff]
  refine ((List.forall₂_and_left _ _).2 ⟨fun k hk => (List.mem_filter.1 hk).1, hmoves⟩).imp ?_
  rintro k e ⟨hk, g, hg, hkg, rfl⟩
  obtain ⟨hpayload, hgkids⟩ := hu.of_mem_familiesAll (hgroups g hg)
  have hitem := isItem_of_mem_gather _ (strays_seeded n c.kids) g hg
  exact ⟨g.id, rfl, hkids.parent? (List.mem_map_of_mem hk),
    hgkids.parent? (List.mem_map_of_mem hkg), (isItem_of_payload? hpayload).trans hitem⟩

theorem forall₂_reports (hu : t.Passed T u) (h : t.Holds T) (hroot : T.id = .root)
    (hnodup : T.ids.Nodup) :
    List.Forall₂ (t.Reports u) t.strayKids (moves t.size T.containers) := by
  rw [h.strayKids_eq hroot hnodup, moves_eq_flatMap]
  have hflat : (T.containers.flatMap fun c => (misplaced c.kids).map fun k => (k.id, c.id)) =
      (numbered t.size T.containers).flatMap fun q =>
        (misplaced q.2.kids).map fun k => (k.id, q.2.id) := by
    conv_lhs => rw [← map_snd_numbered t.size T.containers, List.flatMap_map]
  rw [hflat]
  refine List.rel_flatMap (R := fun q p => q = p ∧ q ∈ numbered t.size T.containers)
    (List.forall₂_same.2 fun q hq => ⟨rfl, hq⟩) ?_
  rintro q _ ⟨rfl, hq⟩
  exact hu.forall₂_reports_gatherMoves h hq

/-! ## Nodes without a report -/

/-- The children of a node that is no list stay the first of its children. -/
theorem exists_hasKids_append (hu : t.Passed T u) (h : t.Holds T) {p : NodeId} (hp : p ∈ T.ids)
    (hlist : t.isList p = false) : ∃ more, u.HasKids p (t.children p ++ more) := by
  by_cases hitem : t.isItem p = true ∧ ∃ c ∈ T.containers, p ∈ c.kids.map Rose.id
  · obtain ⟨hitem, c, hc, hmem⟩ := hitem
    obtain ⟨left, right, hsplit⟩ := List.append_of_mem hmem
    exact ⟨_, hu.hasKids_of_isItem h hc hsplit hitem⟩
  · refine ⟨[], ?_⟩
    rw [List.append_nil]
    exact hu.hasKids_of_not_isList h hp hlist fun hi c hc hmem => hitem ⟨hi, c, hc, hmem⟩

/-- An item stays a child of its list. -/
theorem parent?_of_isItem (hu : t.Passed T u) {c : Container} (hc : c ∈ T.containers) {k : Rose}
    (hk : k ∈ c.kids) (hitem : k.isItem = true) : u.parent? k.id = some c.id := by
  rw [← containersAll_singleton] at hc
  obtain ⟨n, hn⟩ := exists_mem_numbered t.size hc
  obtain ⟨⟨payload, hlist⟩, -⟩ := families_of_numbered t.size [T] _ hn
  obtain ⟨left, right, hsplit⟩ := List.append_of_mem hk
  have hmem : k.id ∈ (regroupKids n c.kids).1.map Rose.id :=
    List.mem_map.2 ⟨_, adopt_mem_regroupKids n hitem hsplit, rfl⟩
  exact (hu.of_mem_familiesAll hlist).2.parent? hmem

/-- A node that is no stray keeps its parent. -/
theorem parent?_eq (hu : t.Passed T u) (h : t.Holds T) (hroot : T.id = .root)
    (hnodup : T.ids.Nodup) {x : NodeId} (hx : x ∈ T.ids) (hstill : ∀ l, (x, l) ∉ t.strayKids) :
    u.parent? x = t.parent? x := by
  rw [T.ids_eq] at hx
  rcases List.mem_cons.1 hx with rfl | hx
  · rw [hroot]
    exact (hu.root_place h hroot hnodup).1
  · obtain ⟨p, hp, ks, hks, hmem⟩ := h.exists_hasKids_of_mem x hx
    rw [hks.parent? hmem]
    cases hlist : t.isList p with
    | false =>
      obtain ⟨more, hmore⟩ := hu.exists_hasKids_append h hp hlist
      rw [hks.children_eq] at hmore
      exact hmore.parent? (List.mem_append_left _ hmem)
    | true =>
      obtain ⟨c, hc, rfl⟩ := h.exists_container p hp hlist
      obtain ⟨-, -, hkids, hholds⟩ := h.mem_containers c hc
      obtain rfl := hkids.eq hks
      have hitem : t.isItem x = true := by
        by_contra hitem
        obtain ⟨l, hl⟩ := h.exists_mem_strayKids hroot hnodup hx (by
          simp [isStray, hitem, hks.parent? hmem, hlist])
        exact hstill l hl
      obtain ⟨k, hk, rfl⟩ := List.mem_map.1 hmem
      exact hu.parent?_of_isItem hc hk ((hholds k hk).isItem_eq.symm.trans hitem)

theorem size_eq (hu : t.Passed T u) (h : t.Holds T) (hroot : T.id = .root)
    (hnodup : T.ids.Nodup) : u.size = t.size + t.headlessLists := by
  have hsnd := regroupAll_snd t.size [T]
  rw [regroupAll_singleton, containersAll_singleton, ← h.headlessLists_eq hroot hnodup] at hsnd
  exact hu.size.trans hsnd

end Tree.Passed

/-! ## The whole account -/

/-- Where there are pairs there is a partner for everything on the left. -/
theorem exists_mem_of_forall₂ {α β : Type} {R : α → β → Prop} {xs : List α} {ys : List β}
    (h : List.Forall₂ R xs ys) : ∀ x ∈ xs, ∃ y ∈ ys, R x y := by
  induction h with
  | nil => exact fun x hx => absurd hx List.not_mem_nil
  | cons hxy _ ih =>
    intro x hx
    rcases List.mem_cons.1 hx with rfl | hx
    · exact ⟨_, List.mem_cons_self, hxy⟩
    · obtain ⟨y, hy, hR⟩ := ih x hx
      exact ⟨y, List.mem_cons_of_mem _ hy, hR⟩

/-- The last report counts the attached lists, the strays below the document and the lists
that begin with a stray; as many nodes as these are made.  The other reports are those of
the strays, one for each and in their order, and a node without a report keeps its parent. -/
theorem regroupLists_account (t : Tree) (log : Log) (hlinks : t.defect? = none)
    (hroom : t.size + t.headlessLists ≤ NodeId.bound) :
    ∃ u events,
      regroupLists (t, log) = .ok () (u, (log ++ events.toArray).push
        (.regrouped ((t.descendants .root).countP t.isList)
          (((t.descendants .root).erase .root).countP t.isStray) t.headlessLists)) ∧
      u.size = t.size + t.headlessLists ∧
      (t.strayKids.map Prod.fst).Perm (((t.descendants .root).erase .root).filter t.isStray) ∧
      List.Forall₂ (t.Reports u) t.strayKids events ∧
      ∀ x ∈ t.descendants .root, (∀ list item, Event.moved x list item ∉ events) →
        u.parent? x = t.parent? x := by
  obtain ⟨T, u, h, hroot, hnodup, hu, hrun⟩ := exists_passed hlinks hroom
  have hdesc := h.descendants_root hroot hnodup
  have hreports := hu.forall₂_reports h hroot hnodup
  have hperm := h.strayKids_perm hroot hnodup
  have hlists : T.containers.length = (t.descendants .root).countP t.isList := by
    rw [List.countP_eq_length_filter, hdesc, ← h.map_id_containers, List.length_map]
  have hmoves : (moves t.size T.containers).length =
      ((t.descendants .root).erase .root).countP t.isStray := by
    rw [List.countP_eq_length_filter, ← hperm.length_eq, List.length_map, hreports.length_eq]
  refine ⟨u, moves t.size T.containers, ?_, hu.size_eq h hroot hnodup, hperm, hreports,
    fun x hx hstill => ?_⟩
  · rw [hrun log, passLog, hlists, hmoves, h.headlessLists_eq hroot hnodup]
  · rw [hdesc] at hx
    refine hu.parent?_eq h hroot hnodup hx fun l hl => ?_
    obtain ⟨_, hmem, item, rfl, -⟩ := exists_mem_of_forall₂ hreports _ hl
    exact hstill l item hmem

theorem regroupLists_account_trailed :
    ∃ u item, regroupLists (trailed, #[]) = .ok () (u,
        #[.moved (.ofNat 3) (.ofNat 1) item, .regrouped 1 1 0]) ∧
      u.parent? (.ofNat 3) = some item := by
  obtain ⟨u, events, hrun, -, -, hreports, -⟩ :=
    regroupLists_account trailed #[] trailed_sound.1 trailed_sound.2
  have hstrays : trailed.strayKids = [(.ofNat 3, .ofNat 1)] := by decide +kernel
  rw [hstrays] at hreports
  have hcounts : Event.regrouped ((trailed.descendants .root).countP trailed.isList)
      (((trailed.descendants .root).erase .root).countP trailed.isStray)
      trailed.headlessLists = .regrouped 1 1 0 := by decide +kernel
  rw [hcounts] at hrun
  cases hreports with
  | cons hreport hrest =>
    cases hrest
    obtain ⟨item, rfl, -, hparent, -⟩ := hreport
    exact ⟨u, item, hrun, hparent⟩

/-- A document that was appended to a list of one item. -/
def Tree.hung : Tree where
  nodes := #[
    ⟨.document, some (.ofNat 1), none, none, some (.ofNat 2), none⟩,
    ⟨.element (.html "ul") [], none, some (.ofNat 2), some .root, none, none⟩,
    ⟨.element (.html "li") [], some (.ofNat 1), none, none, none, some .root⟩]
  nodes_nonempty := by decide

theorem hung_sound : hung.defect? = none ∧ hung.size + hung.headlessLists ≤ NodeId.bound ∧
    hung.descendants .root = [.root] ∧ hung.isList .root = false ∧ hung.isStray .root = true := by
  decide +kernel

/-- The document itself is not counted, even if it is no item and its parent is a list. -/
theorem not_regroupLists_account :
    ¬ ∀ (t : Tree) (log : Log), t.defect? = none →
      t.size + t.headlessLists ≤ NodeId.bound →
      ∃ (u : Tree) (events : List Event) (lists made : Nat),
        regroupLists (t, log) = .ok () (u, (log ++ events.toArray).push
          (.regrouped lists ((t.descendants .root).countP t.isStray) made)) := by
  intro hall
  obtain ⟨hlinks, hroom, hattached, hlist, hstray⟩ := hung_sound
  have htidy : hung.Tidy := by
    intro l hl hl'
    rw [hattached, List.mem_singleton] at hl
    rw [hl, hlist] at hl'
    cases hl'
  obtain ⟨u, events, lists, made, hrun⟩ := hall hung #[] hlinks hroom
  obtain ⟨n, hstill⟩ := regroupLists_of_tidy hlinks (by omega) htidy #[]
  have hcount : (hung.descendants .root).countP hung.isStray = 1 := by
    rw [hattached, List.countP_singleton, hstray]
    rfl
  rw [hstill, hcount] at hrun
  injection hrun with _ hstate
  obtain ⟨-, hlog⟩ := Prod.mk.inj hstate
  injection (Array.push_eq_push.1 hlog).1 with _ hmoved
  exact absurd hmoved Nat.zero_ne_one

end DocTree
