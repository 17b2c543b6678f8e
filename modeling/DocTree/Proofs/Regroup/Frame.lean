import DocTree.Proofs.Regroup.Families
import DocTree.Proofs.Regroup.Pass
set_option autoImplicit false

/-!
# Frame: what the pass leaves alone

The pass writes to attached nodes only, whatever the other nodes are linked to
(`Tree.Passed.node?_eq`), and not to the place of the document itself.  Of the attached
nodes only lists and their items get other children: an item of a list keeps its children
and gets those behind them that stood between it and the next item.
-/

namespace DocTree

open DocTree.Tree Rose

variable {t u : Tree} {T : Rose}

namespace Tree

/-- A node is what its payload and its links are. -/
theorem Changes.node?_eq {hosts guests : List NodeId} (h : t.Changes u hosts guests) {x : NodeId}
    (hx : x.index < t.size) (hhost : x ∉ hosts) (hguest : x ∉ guests) :
    u.node? x = t.node? x := by
  obtain ⟨n, hn⟩ := exists_node?_iff.2 hx
  obtain ⟨m, hm⟩ := exists_node?_iff.2 (Nat.lt_of_lt_of_le hx h.size)
  have hpayload := h.payload x hx
  obtain ⟨hfirst, hlast⟩ := h.ends x hx hhost
  obtain ⟨hparent, hprev, hnext⟩ := h.place x hx hguest
  unfold payload? at hpayload
  unfold firstChild? at hfirst
  unfold lastChild? at hlast
  unfold parent? at hparent
  unfold prevSibling? at hprev
  unfold nextSibling? at hnext
  rw [hm, hn] at hpayload hfirst hlast hparent hprev hnext ⊢
  cases m
  cases n
  simp_all

/-! ## Families of a held tree -/

namespace Holds

variable {r : Rose}

theorem children_eq (h : t.Holds r) : t.children r.id = r.kids.map Rose.id := by
  cases r
  exact h.hasKids.children_eq

/-- The families of a held tree are held. -/
theorem of_mem_families (h : t.Holds r) :
    ∀ f ∈ r.families, t.payload? f.id = some f.payload ∧ t.HasKids f.id f.kids := by
  induction r using Rose.induct with
  | node id payload kids ih =>
    intro f hf
    rw [families_eq] at hf
    rcases List.mem_cons.1 hf with rfl | hf
    · exact ⟨h.payload?, h.hasKids⟩
    · obtain ⟨k, hk, hfk⟩ := mem_familiesAll.1 hf
      exact ih k hk (h.kid k hk) f hfk

/-- The strays before the first item can be seen in the row. -/
theorem map_id_strays {ks : List Rose} (h : ∀ k ∈ ks, t.Holds k) :
    (strays ks).map Rose.id = (ks.map Rose.id).takeWhile fun c => !t.isItem c := by
  induction ks with
  | nil => rfl
  | cons k ks ih =>
    have hitem := (h k List.mem_cons_self).isItem_eq
    have htail := ih fun j hj => h j (List.mem_cons_of_mem _ hj)
    cases hk : k.isItem with
    | true => simp [strays_cons_of_isItem hk, hitem, hk]
    | false => simp [strays_cons_of_not_isItem hk, hitem, hk, htail]

end Holds

/-! ## The row that the pass leaves -/

namespace Passed

/-- Nodes that are not attached stay as they are. -/
theorem node?_eq (hu : t.Passed T u) {x : NodeId} (hx : x.index < t.size) (hout : x ∉ T.ids) :
    u.node? x = t.node? x := by
  refine hu.changes.node?_eq hx hout fun hinside => hout ?_
  rw [← idsAll_singleton T]
  exact inside_subset [T] hinside

/-- The document keeps its place. -/
theorem root_place (hu : t.Passed T u) (h : t.Holds T) (hroot : T.id = .root)
    (hnodup : T.ids.Nodup) :
    u.parent? .root = t.parent? .root ∧ u.prevSibling? .root = t.prevSibling? .root ∧
      u.nextSibling? .root = t.nextSibling? .root := by
  have hmem := T.id_mem_ids
  have hinside : T.id ∉ inside [T] := not_mem_inside (by rwa [idsAll_singleton]) (by simp)
  rw [hroot] at hmem hinside
  exact hu.changes.place _ (h.index_lt _ hmem) hinside

/-- The families that the pass leaves. -/
theorem of_mem_familiesAll (hu : t.Passed T u) {f : Family}
    (hf : f ∈ familiesAll (regroupAll t.size [T]).1) :
    u.payload? f.id = some f.payload ∧ u.HasKids f.id f.kids := by
  rw [regroupAll_singleton, familiesAll_cons, familiesAll_nil, List.append_nil] at hf
  exact hu.holds.of_mem_families f hf

/-- The children stay of a node that is neither a list nor an item of a list. -/
theorem hasKids_of_not_isList (hu : t.Passed T u) (h : t.Holds T) {x : NodeId} (hx : x ∈ T.ids)
    (hlist : t.isList x = false)
    (hitem : t.isItem x = true → ∀ c ∈ T.containers, x ∉ c.kids.map Rose.id) :
    u.HasKids x (t.children x) := by
  obtain ⟨f, hf, rfl⟩ := exists_mem_families hx
  obtain ⟨hpayload, hkids⟩ := h.of_mem_families f hf
  rw [isList_of_payload? hpayload] at hlist
  rw [isItem_of_payload? hpayload] at hitem
  rw [hkids.children_eq]
  refine (hu.of_mem_familiesAll (mem_familiesAll_regroupAll t.size [T] f ?_ hlist ?_)).2
  · exact mem_familiesAll.2 ⟨T, List.mem_singleton_self T, hf⟩
  · rwa [containersAll_singleton]

/-- An item of a list gets the children of the list that stand between it and the next
item. -/
theorem hasKids_of_isItem (hu : t.Passed T u) (h : t.Holds T) {c : Container}
    (hc : c ∈ T.containers) {left right : List NodeId} {x : NodeId}
    (hsplit : c.kids.map Rose.id = left ++ x :: right) (hitem : t.isItem x = true) :
    u.HasKids x (t.children x ++ right.takeWhile fun d => !t.isItem d) := by
  obtain ⟨-, -, -, hkids⟩ := h.mem_containers c hc
  obtain ⟨before, others, hbefore, rfl, hothers⟩ := List.map_eq_append_iff.1 hsplit
  obtain ⟨k, after, rfl, rfl, rfl⟩ := List.map_eq_cons_iff.1 hothers
  rw [hbefore] at hkids
  have hk := hkids k (by simp)
  have hafter : ∀ d ∈ after, t.Holds d := fun d hd => hkids d (by simp [hd])
  rw [hk.isItem_eq] at hitem
  rw [← containersAll_singleton] at hc
  obtain ⟨n, hn⟩ := exists_mem_numbered t.size hc
  have hgroup := (families_of_numbered t.size [T] _ hn).2 _
    (adopt_mem_regroupKids n hitem hbefore)
  rw [hk.children_eq, ← Holds.map_id_strays hafter, ← List.map_append]
  exact (hu.of_mem_familiesAll hgroup).2

end Passed

end Tree

/-- Payloads stay, all links of nodes that are not attached, whatever they are, and the
place of the document.  Attached nodes keep their children unless they are lists or items of
lists, and an item of a list keeps them and gets the children of the list between it and the
next item. -/
theorem regroupLists_frame (t : Tree) (log : Log) (hlinks : t.defect? = none)
    (hroom : t.size + t.headlessLists ≤ NodeId.bound) :
    ∃ u log', regroupLists (t, log) = .ok () (u, log') ∧
      (∀ x, x.index < t.size → u.payload? x = t.payload? x) ∧
      (∀ x, x.index < t.size → x ∉ t.descendants .root → u.node? x = t.node? x) ∧
      (u.parent? .root = t.parent? .root ∧ u.prevSibling? .root = t.prevSibling? .root ∧
        u.nextSibling? .root = t.nextSibling? .root) ∧
      (∀ x ∈ t.descendants .root, t.isList x = false →
        (t.isItem x = true → ∀ l ∈ t.descendants .root, t.isList l = true → x ∉ t.children l) →
        u.HasKids x (t.children x)) ∧
      ∀ l ∈ t.descendants .root, t.isList l = true → ∀ left x right,
        t.children l = left ++ x :: right → t.isItem x = true →
        u.HasKids x (t.children x ++ right.takeWhile fun c => !t.isItem c) := by
  obtain ⟨T, u, h, hroot, hnodup, hu, hrun⟩ := exists_passed hlinks hroom
  rw [h.descendants_root hroot hnodup]
  refine ⟨u, _, hrun log, hu.changes.payload, fun x => hu.node?_eq, hu.root_place h hroot hnodup,
    fun x hx hlist hitem => ?_, fun l hl hlist left x right hsplit => ?_⟩
  · refine hu.hasKids_of_not_isList h hx hlist fun hi c hc => ?_
    obtain ⟨hmem, hclist, hkids, -⟩ := h.mem_containers c hc
    rw [← hkids.children_eq]
    exact hitem hi c.id hmem hclist
  · obtain ⟨c, hc, rfl⟩ := h.exists_container l hl hlist
    obtain ⟨-, -, hkids, -⟩ := h.mem_containers c hc
    rw [hkids.children_eq] at hsplit
    exact hu.hasKids_of_isItem h hc hsplit

/-- A document that is a list of an item and a text, and a node that stands nowhere and is
linked to both of them and to a number outside the row. -/
def Tree.trailed : Tree where
  nodes := #[
    ⟨.document, none, some (.ofNat 1), some (.ofNat 1), none, none⟩,
    ⟨.element (.html "ul") [], some .root, some (.ofNat 2), some (.ofNat 3), none, none⟩,
    ⟨.element (.html "li") [], some (.ofNat 1), none, none, none, some (.ofNat 3)⟩,
    ⟨.text "a", some (.ofNat 1), none, none, some (.ofNat 2), none⟩,
    ⟨.text "b", some (.ofNat 1), some (.ofNat 9), none, some (.ofNat 2), some (.ofNat 3)⟩]
  nodes_nonempty := by decide

theorem trailed_sound :
    trailed.defect? = none ∧ trailed.size + trailed.headlessLists ≤ NodeId.bound := by
  decide +kernel

theorem regroupLists_frame_trailed :
    ∃ u log', regroupLists (trailed, #[]) = .ok () (u, log') ∧
      u.node? (.ofNat 4) = trailed.node? (.ofNat 4) ∧ u.HasKids .root [.ofNat 1] ∧
      u.HasKids (.ofNat 2) [.ofNat 3] := by
  obtain ⟨u, log', hrun, -, hdetached, -, hkept, hitem⟩ :=
    regroupLists_frame trailed #[] trailed_sound.1 trailed_sound.2
  refine ⟨u, log', hrun, hdetached _ (by decide +kernel) (by decide +kernel), ?_, ?_⟩
  · exact hkept .root (by decide +kernel) (by decide +kernel) fun h => absurd h (by decide +kernel)
  · exact hitem (.ofNat 1) (by decide +kernel) (by decide +kernel) [] (.ofNat 2) [.ofNat 3]
      (by decide +kernel) (by decide +kernel)

end DocTree
