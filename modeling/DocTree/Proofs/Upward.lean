import DocTree.Proofs.Runs
import DocTree.Proofs.Sequence
set_option autoImplicit false

/-!
# Upward: the document seen from below

A node belongs to the document if parent links lead from it up to the document, and document order
is read downwards, by other links.  In a row that calls have left behind without moving the
document itself, the two views agree: what is read are the nodes that belong to the document, in
an order that follows their child lists (`documentOrder_of_runs`).  What stands below itself, or
below a node that stands nowhere, does not belong to it, and a search does not come to it.
-/

namespace DocTree

namespace Tree

variable {t : Tree} {r : Rose} {x y a b p : NodeId}

/-- Parent links lead from the first node up to the second, in any number of steps. -/
def Upward (t : Tree) : NodeId → NodeId → Prop :=
  Relation.ReflTransGen fun c p => t.parent? c = some p

/-! ## The nodes of a held tree -/

theorem Holds.upward (h : t.Holds r) : ∀ x ∈ r.ids, t.Upward x r.id := by
  induction r using Rose.induct with
  | node id payload kids ih =>
    intro x hx
    rcases List.mem_cons.1 hx with rfl | hx
    · exact .refl
    · obtain ⟨k, hk, hxk⟩ := Rose.mem_idsAll.1 hx
      exact (ih k hk (h.kid k hk) x hxk).tail (h.hasKids.parent? (List.mem_map_of_mem hk))

/-- A node from which parent links lead to the root of a held tree belongs to that tree. -/
theorem WellLinked.mem_ids_of_upward (h : t.WellLinked) (hr : t.Holds r) (hx : t.Upward x r.id) :
    x ∈ r.ids := by
  induction hx using Relation.ReflTransGen.head_induction_on with
  | refl => exact r.id_mem_ids
  | head hparent _ ih =>
    obtain ⟨ks, hks, hbelow⟩ := hr.hasKids_of_mem _ ih
    have hchild := h.home _ _ hparent
    rw [hks.children_eq] at hchild
    exact r.idsAll_kids_subset_ids (hbelow _ hchild)

/-- The parent of a node of a held tree, other than its root, belongs to that tree. -/
theorem Holds.parent?_of_mem (h : t.Holds r) (hx : x ∈ r.ids) (hne : x ≠ r.id) :
    ∃ p ∈ r.ids, t.parent? x = some p := by
  have hx' : x ∈ Rose.idsAll r.kids := (List.mem_cons.1 (r.ids_eq ▸ hx)).resolve_left hne
  obtain ⟨p, hp, ks, hks, hmem⟩ := h.exists_hasKids_of_mem x hx'
  exact ⟨p, hp, hks.parent? hmem⟩

/-- Parent links do not lead out of a held tree whose root has no parent. -/
theorem Holds.mem_of_upward (h : t.Holds r) (hroot : t.parent? r.id = none) (hx : x ∈ r.ids)
    (hup : t.Upward x y) : y ∈ r.ids := by
  induction hup with
  | refl => exact hx
  | @tail c p _ hparent ih =>
    have hne : c ≠ r.id := by
      rintro rfl
      rw [hroot] at hparent
      cases hparent
    obtain ⟨q, hq, hcq⟩ := h.parent?_of_mem ih hne
    obtain rfl := Option.some.inj (hcq.symm.trans hparent)
    exact hq

/-! ## The order of a held tree -/

/-- A node stands before all that is below it. -/
theorem Holds.sublist_of_below (h : t.Holds r) (ha : a ∈ r.ids) (hab : t.Below a b) :
    [a, b].Sublist r.ids := by
  obtain ⟨s, rfl, hs, hsub⟩ := h.exists_holds_of_mem ha
  refine List.Sublist.trans ?_ hsub
  rw [s.ids_eq]
  exact (List.singleton_sublist.2 (hs.mem_of_below s.id_mem_ids hab)).cons_cons _

theorem Holds.mem_of_at_or_below (h : t.Holds r) (hx : x = r.id ∨ t.Below r.id x) : x ∈ r.ids := by
  rcases hx with rfl | hx
  · exact r.id_mem_ids
  · exact r.idsAll_kids_subset_ids (h.mem_of_below r.id_mem_ids hx)

/-- All that is at or below a child stands before all that is at or below a later child. -/
theorem Holds.sublist_of_children (h : t.Holds r) (hp : p ∈ r.ids)
    (hab : [a, b].Sublist (t.children p)) (hx : x = a ∨ t.Below a x) (hy : y = b ∨ t.Below b y) :
    [x, y].Sublist r.ids := by
  obtain ⟨s, rfl, hs, hsub⟩ := h.exists_holds_of_mem hp
  refine List.Sublist.trans ?_ hsub
  cases s with
  | node id payload kids =>
    change [a, b].Sublist (t.children id) at hab
    rw [hs.hasKids.children_eq] at hab
    obtain ⟨pair, hpair, heq⟩ := List.sublist_map_iff.1 hab
    match pair, heq with
    | [k, l], heq =>
      obtain ⟨rfl, rfl⟩ : a = k.id ∧ b = l.id := by simpa using heq
      have hk := (hs.kid k (hpair.subset (by simp))).mem_of_at_or_below hx
      have hl := (hs.kid l (hpair.subset (by simp))).mem_of_at_or_below hy
      have hxy : [x, y].Sublist (Rose.idsAll [k, l]) := by
        rw [Rose.idsAll_cons, Rose.idsAll_singleton]
        exact (List.singleton_sublist.2 hk).append (List.singleton_sublist.2 hl)
      refine (hxy.trans ?_).cons _
      rw [Rose.idsAll_eq_flatMap, Rose.idsAll_eq_flatMap]
      exact hpair.flatMap _

/-! ## Search -/

/-- A search below the root of a held tree answers the first node in document order. -/
theorem Holds.findBelow_eq (h : t.Holds r) (q : Node → Bool) {depth : Nat}
    (hdepth : r.ids.length ≤ depth) :
    t.findBelow q depth r.id = r.ids.find? fun x => (t.node? x).any q := by
  induction r using Rose.induct generalizing depth with
  | node id payload kids ih =>
    rw [Rose.ids_node, List.length_cons] at hdepth
    obtain ⟨depth, rfl⟩ : ∃ k, depth = k + 1 := ⟨depth - 1, by omega⟩
    -- the subtrees of the children are searched one after another
    have hall : ∀ ks : List Rose, ks.Sublist kids →
        (ks.map Rose.id).findSome? (t.findBelow q depth) =
          (Rose.idsAll ks).find? fun x => (t.node? x).any q := by
      intro ks hks
      induction ks with
      | nil => rfl
      | cons k ks ihks =>
        have hk : k ∈ kids := hks.subset List.mem_cons_self
        have hle := (Rose.ids_sublist_idsAll hk).length_le
        rw [List.map_cons, List.findSome?_cons, Rose.idsAll_cons, List.find?_append,
          ih k hk (h.kid k hk) (by omega), ihks (List.sublist_of_cons_sublist hks)]
        cases k.ids.find? fun x => (t.node? x).any q <;> rfl
    change (if (t.node? id).any q then some id
      else (t.children id).findSome? (t.findBelow q depth)) = _
    rw [h.hasKids.children_eq, hall kids (List.Sublist.refl _), Rose.ids_node, List.find?_cons]
    cases (t.node? id).any q <;> rfl

/-! ## The two views of a document -/

/-- The numbers `ids` are those of the document in document order.  They are all that is read
downwards from it, and all from which parent links lead up to it; a node stands before all that
is below it, and what is at or below a child before what is at or below a later child. -/
structure DocumentOrder (t : Tree) (ids : List NodeId) : Prop where
  chains : ∀ p, t.Follows (t.firstChild? p) (t.children p)
  sequence : t.sequence [.root] = Stream'.Seq.ofList ids
  mem_iff : ∀ x, x ∈ ids ↔ t.Upward x .root
  nodup : ids.Nodup
  below : ∀ a b, a ∈ ids → t.Below a b → [a, b].Sublist ids
  siblings : ∀ p a b x y, p ∈ ids → [a, b].Sublist (t.children p) → x = a ∨ t.Below a x →
    y = b ∨ t.Below b y → [x, y].Sublist ids

theorem WellLinked.documentOrder (h : t.WellLinked) (hr : t.Holds r) (hnodup : r.ids.Nodup)
    (hroot : r.id = .root) : t.DocumentOrder r.ids where
  chains := fun p => (h.kids p).follows
  sequence := hroot ▸ hr.sequence_eq
  mem_iff := fun x =>
    ⟨fun hx => hroot ▸ hr.upward x hx, fun hx => h.mem_ids_of_upward hr (hroot.symm ▸ hx)⟩
  nodup := hnodup
  below := fun _ _ => hr.sublist_of_below
  siblings := fun _ _ _ _ _ => hr.sublist_of_children

end Tree

/-- After any calls that do not move the document, what is read downwards from it are the nodes
from which parent links lead up to it, each once and in document order, and a search answers
the first of them that it is looking for.  No node at or below one that stands nowhere, or below
itself, is among them. -/
theorem documentOrder_of_runs (calls : List Call) (log : Log) (s : Tree × Log)
    (hrun : Runs calls (Tree.new, log) s) (hsize : s.1.size ≤ NodeId.bound)
    (hmoved : ∀ c ∈ calls, .root ∉ c.moved) :
    s.1.DocumentOrder (s.1.descendants .root) ∧
    (∀ q, s.1.find? q = (s.1.descendants .root).find? fun x => (s.1.node? x).any q) ∧
    (∀ q, s.1.find? q = none ↔ ∀ x, s.1.Upward x .root → (s.1.node? x).any q = false) ∧
    (∀ x y, s.1.Upward x y → (y ≠ .root ∧ s.1.parent? y = none) ∨ s.1.Below y y →
      x ∉ s.1.descendants .root ∧ ∀ q, s.1.find? q ≠ some x) := by
  have hfit := @sound_of_runs True calls _ s hrun (fun _ => hmoved) sound_new hsize
  obtain ⟨r, hr, hnodup, hroot⟩ := Tree.defect?_eq_none_iff_holds.1
    ((defect?_of_runs calls log s hrun hsize).2.2 hmoved)
  have hids : s.1.descendants .root = r.ids := hr.descendants_root hroot hnodup
  have horder := hfit.linked.documentOrder hr hnodup hroot
  have hfind : ∀ q, s.1.find? q = r.ids.find? fun x => (s.1.node? x).any q := by
    intro q
    unfold Tree.find?
    rw [← hroot]
    exact hr.findBelow_eq q (hr.length_ids_le hnodup)
  have hout : ∀ x y, s.1.Upward x y → (y ≠ .root ∧ s.1.parent? y = none) ∨ s.1.Below y y →
      x ∉ r.ids := by
    intro x y hup hcase hx
    have hy : y ∈ r.ids := hr.mem_of_upward (hroot ▸ hfit.root trivial) hx hup
    rcases hcase with ⟨hne, hloose⟩ | hbelow
    · obtain ⟨p, -, hparent⟩ := hr.parent?_of_mem hy (hroot ▸ hne)
      rw [hloose] at hparent
      cases hparent
    · exact hr.not_below_self hnodup hy hbelow
  rw [hids]
  refine ⟨horder, hfind, fun q => ?_, fun x y hup hcase => ⟨hout x y hup hcase, fun q hq => ?_⟩⟩
  · rw [hfind, List.find?_eq_none]
    exact forall_congr' fun x => by rw [horder.mem_iff, Bool.not_eq_true]
  · rw [hfind] at hq
    exact hout x y hup hcase (List.mem_of_find?_eq_some hq)

/-- The calls that make a list of the document with a text in its item, a list that stands below
its own item, and a text that is taken out of its place again. -/
def callsForApart : List Call :=
  [.createHtml "ul", .createHtml "li", .createText "a", .append .root (.ofNat 1),
    .append (.ofNat 1) (.ofNat 2), .append (.ofNat 2) (.ofNat 3), .createHtml "ol",
    .createHtml "li", .append (.ofNat 4) (.ofNat 5), .append (.ofNat 5) (.ofNat 4),
    .createText "b", .append (.ofNat 1) (.ofNat 6), .detach (.ofNat 6)]

/-- What these calls leave. -/
def apartRow : Tree × Log := callsForApart.foldl (fun s c => c.after s) (Tree.new, #[])

theorem documentOrder_of_runs_apart :
    apartRow.1.DocumentOrder [.root, .ofNat 1, .ofNat 2, .ofNat 3] ∧
    apartRow.1.find? (fun n => n.payload.text?.isSome) = some (.ofNat 3) ∧
    (∀ q, apartRow.1.find? q ≠ some (.ofNat 6)) ∧ ∀ q, apartRow.1.find? q ≠ some (.ofNat 5) := by
  have hrun : Runs callsForApart (Tree.new, #[]) apartRow := by
    unfold callsForApart
    exact .cons (by decide) (.cons (by decide) (.cons (by decide) (.cons (by decide)
      (.cons (by decide) (.cons (by decide) (.cons (by decide) (.cons (by decide)
      (.cons (by decide) (.cons (by decide) (.cons (by decide) (.cons (by decide)
      (.cons (by decide) (.nil _)))))))))))))
  have hids : apartRow.1.descendants .root = [.root, .ofNat 1, .ofNat 2, .ofNat 3] := by
    decide +kernel
  have hlinks : apartRow.1.parent? (.ofNat 6) = none ∧
      apartRow.1.children (.ofNat 4) = [.ofNat 5] ∧
      apartRow.1.children (.ofNat 5) = [.ofNat 4] := by decide +kernel
  obtain ⟨hloose, hlist, hitem⟩ := hlinks
  have hbelow : apartRow.1.Below (.ofNat 5) (.ofNat 5) :=
    .tail (b := .ofNat 4) (.single (hitem ▸ List.mem_cons_self)) (hlist ▸ List.mem_cons_self)
  obtain ⟨horder, hfind, -, hout⟩ := documentOrder_of_runs callsForApart #[] apartRow hrun
    (by decide +kernel) (by decide)
  rw [hids] at horder hfind
  refine ⟨horder, ?_, ?_, ?_⟩
  · rw [hfind]
    decide +kernel
  · exact (hout _ _ .refl (Or.inl ⟨by decide, hloose⟩)).2
  · exact (hout _ _ .refl (Or.inr hbelow)).2

end DocTree
