import DocTree.Proofs.Defects
import DocTree.Proofs.Walked
set_option autoImplicit false

/-!
# Repaired: walks whose visits change only what is still before them

A visit may rearrange what is below its node.  What the walk has gone through by then is what
reading the changed tree goes through (`Tree.Traversed.congr`), so in the end the walk has gone
through the tree that it leaves, node by node in document order (`walk_descendants`).
-/

namespace DocTree

open DocTree.Tree

/-! ## Reading in document order -/

/-- Reading `t` from `start` on in document order has gone through `visited` and has the
subtrees at `pending` before it. -/
inductive Tree.Traversed (t : Tree) (start : NodeId) : List NodeId → List NodeId → Prop where
  | start : t.Traversed start [] [start]
  | step {visited pending : List NodeId} {id : NodeId}
    (h : t.Traversed start visited (id :: pending)) :
    t.Traversed start (visited ++ [id]) (t.children id ++ pending)

namespace Tree.Traversed

variable {t u : Tree} {start id : NodeId} {visited pending : List NodeId} {r : Rose}

/-- Only the child lists of the nodes gone through have been read. -/
theorem congr (h : t.Traversed start visited pending)
    (hsame : ∀ p ∈ visited, u.children p = t.children p) : u.Traversed start visited pending := by
  induction h with
  | start => exact .start
  | step _ ih =>
    rw [← hsame _ (List.mem_append_right _ List.mem_cons_self)]
    exact .step (ih fun p hp => hsame p (List.mem_append_left _ hp))

/-- Of a tree that the row holds, what was not gone through hangs at the pending nodes. -/
theorem exists_holds (h : t.Traversed start visited pending) (hr : t.Holds r)
    (hstart : r.id = start) :
    ∃ rs : List Rose, rs.map Rose.id = pending ∧ (∀ s ∈ rs, t.Holds s) ∧
      r.ids = visited ++ Rose.idsAll rs := by
  induction h with
  | start =>
    refine ⟨[r], by rw [List.map_singleton, hstart], by simpa using hr, ?_⟩
    rw [Rose.idsAll_singleton, List.nil_append]
  | step _ ih =>
    obtain ⟨rs, hmap, hholds, hids⟩ := ih
    obtain ⟨s, rs, rfl, rfl, rfl⟩ := List.map_eq_cons_iff.1 hmap
    cases s with
    | node id payload kids =>
      have hs := hholds _ List.mem_cons_self
      refine ⟨kids ++ rs, ?_, fun k hk => ?_, ?_⟩
      · rw [List.map_append]
        exact congrArg (· ++ rs.map Rose.id) hs.hasKids.children_eq.symm
      · rcases List.mem_append.1 hk with hk | hk
        · exact hs.kid k hk
        · exact hholds k (List.mem_cons_of_mem _ hk)
      · rw [hids, Rose.idsAll_cons, Rose.ids_node, Rose.idsAll_append]
        simp [Rose.id]

/-- A tree that was gone through to its end. -/
theorem ids_eq (h : t.Traversed start visited []) (hr : t.Holds r) (hstart : r.id = start) :
    r.ids = visited := by
  obtain ⟨rs, hmap, -, hids⟩ := h.exists_holds hr hstart
  obtain rfl := List.map_eq_nil_iff.1 hmap
  rw [hids, Rose.idsAll_nil, List.append_nil]

theorem nodup (h : t.Traversed start visited pending) (hr : t.Holds r) (hstart : r.id = start)
    (hnodup : r.ids.Nodup) : visited.Nodup := by
  obtain ⟨rs, -, -, hids⟩ := h.exists_holds hr hstart
  rw [hids] at hnodup
  exact (List.nodup_append.1 hnodup).1

/-- While a node is pending, not all nodes have been gone through. -/
theorem length_lt (h : t.Traversed start visited (id :: pending)) (hr : t.Holds r)
    (hstart : r.id = start) (hnodup : r.ids.Nodup) : visited.length < t.size := by
  obtain ⟨rs, hmap, -, hids⟩ := h.exists_holds hr hstart
  obtain ⟨s, rs, rfl, -, -⟩ := List.map_eq_cons_iff.1 hmap
  have hle := hr.length_ids_le hnodup
  rw [hids, Rose.idsAll_cons, Rose.ids_eq, List.length_append, List.cons_append,
    List.length_cons] at hle
  omega

/-- What was gone through lies neither at the next node nor below it. -/
theorem not_below (h : t.Traversed start visited (id :: pending)) (hr : t.Holds r)
    (hstart : r.id = start) (hnodup : r.ids.Nodup) {p : NodeId} (hp : p ∈ visited) :
    p ∈ r.ids ∧ p ≠ id ∧ ¬ t.Below id p := by
  obtain ⟨rs, hmap, hholds, hids⟩ := h.exists_holds hr hstart
  obtain ⟨s, rs, rfl, rfl, -⟩ := List.map_eq_cons_iff.1 hmap
  rw [hids, Rose.idsAll_cons] at hnodup ⊢
  have hout : p ∉ s.ids := fun hmem =>
    (List.nodup_append.1 hnodup).2.2 p hp p (List.mem_append_left _ hmem) rfl
  refine ⟨List.mem_append_left _ hp, fun heq => hout (heq ▸ s.id_mem_ids), fun hbelow => hout ?_⟩
  exact s.idsAll_kids_subset_ids ((hholds s List.mem_cons_self).mem_of_below s.id_mem_ids hbelow)

end Tree.Traversed

/-! ## Visits that keep to their node -/

/-- `u` is a document again, and of the child lists of attached nodes it has changed at most that
of `id` and those of nodes below it. -/
structure Tree.Mended (t : Tree) (id : NodeId) (u : Tree) : Prop where
  size_le : u.size ≤ NodeId.bound
  links : u.defect? = none
  children : ∀ p ∈ t.descendants .root, p ≠ id → ¬ t.Below id p → u.children p = t.children p

variable {σ : Type} {visit : NodeId → Pass σ Unit} {x y : Tree × σ} {visited pending : List NodeId}

/-- At every stage of a walk whose visits keep to their nodes, reading the row as it is then has
gone through what the walk has visited. -/
theorem Walked.traversed (h : Walked visit .root x visited pending y)
    (hsize : x.1.size ≤ NodeId.bound) (hlinks : x.1.defect? = none)
    (hvisit : ∀ visited id pending y, Walked visit .root x visited (id :: pending) y →
      ∃ z, visit id y = .ok () z ∧ y.1.Mended id z.1) :
    y.1.size ≤ NodeId.bound ∧ y.1.defect? = none ∧ y.1.Traversed .root visited pending := by
  induction h with
  | start => exact ⟨hsize, hlinks, .start⟩
  | @visit visited pending id y z h hroom hrun ih =>
    obtain ⟨-, hlinks, htraversed⟩ := ih
    obtain ⟨z', hrun', hmended⟩ := hvisit _ _ _ _ h
    rw [hrun] at hrun'
    cases hrun'
    obtain ⟨r, hr, hnodup, hroot⟩ := defect?_eq_none_iff_holds.1 hlinks
    refine ⟨hmended.size_le, hmended.links, .step (htraversed.congr fun p hp => ?_)⟩
    obtain ⟨hmem, hne, hbelow⟩ := htraversed.not_below hr hroot hnodup hp
    exact hmended.children p (hr.descendants_root hroot hnodup ▸ hmem) hne hbelow

/-- If every visit leaves a document and changes only child lists at and below its node, the walk
visits no node twice and comes to its end, and then it has visited the nodes of the document
that it leaves, in document order. -/
theorem walk_descendants (visit : NodeId → Pass σ Unit) (x : Tree × σ)
    (hsize : x.1.size ≤ NodeId.bound) (hlinks : x.1.defect? = none)
    (hvisit : ∀ visited id pending y, Walked visit .root x visited (id :: pending) y →
      ∃ z, visit id y = .ok () z ∧ y.1.Mended id z.1) :
    (∀ visited pending y, Walked visit .root x visited pending y → visited.Nodup) ∧
    ∃ z, walk visit .root x = .ok () z ∧ Walked visit .root x (z.1.descendants .root) [] z := by
  have hstage : ∀ {visited pending y}, Walked visit .root x visited pending y →
      y.1.size ≤ NodeId.bound ∧ ∃ r : Rose, y.1.Holds r ∧ r.ids.Nodup ∧ r.id = .root ∧
        y.1.Traversed .root visited pending := by
    intro visited pending y h
    obtain ⟨hle, hnone, htraversed⟩ := h.traversed hsize hlinks hvisit
    obtain ⟨r, hr, hnodup, hroot⟩ := defect?_eq_none_iff_holds.1 hnone
    exact ⟨hle, r, hr, hnodup, hroot, htraversed⟩
  refine ⟨fun visited pending y h => ?_, ?_⟩
  · obtain ⟨-, r, hr, hnodup, hroot, htraversed⟩ := hstage h
    exact htraversed.nodup hr hroot hnodup
  · rcases walk_cases visit .root x with ⟨ids, rest, z, hrun, h, hlast⟩ | ⟨fault, z, -, hstop⟩
    · obtain ⟨hle, r, hr, hnodup, hroot, htraversed⟩ := hstage h
      cases rest with
      | nil =>
        refine ⟨z, hrun, ?_⟩
        rwa [hr.descendants_root hroot hnodup, htraversed.ids_eq hr hroot]
      | cons id rest =>
        -- more visits than there can be nodes
        exfalso
        have hlt := htraversed.length_lt hr hroot hnodup
        have hlen : ids.length = walkLimit := hlast.resolve_left (List.cons_ne_nil _ _)
        unfold walkLimit at hlen
        omega
    · exfalso
      cases hstop with
      | circular h hfull =>
        obtain ⟨-, r, hr, hnodup, hroot, htraversed⟩ := hstage h
        exact absurd (htraversed.length_lt hr hroot hnodup) (Nat.not_lt.2 hfull)
      | visit h _ hrun =>
        obtain ⟨z', hrun', -⟩ := hvisit _ _ _ _ h
        rw [hrun] at hrun'
        cases hrun'

/-- A visit that appends a text to each `div`. -/
def appendLate (id : NodeId) : Pass Unit Unit := do
  if (← Pass.tree).isTag id "div" then
    Pass.edit do Edit.append id (← Edit.createText "late")

/-- The document with an empty `div`. -/
def emptyDiv : Tree :=
  (Edit.append .root (.ofNat 1)).leave (Tree.new.create (.element (.html "div") [])).2

/-- What the visits leave of it: the `div` has got a text. -/
def lateDiv : Tree := (Edit.appendText (.ofNat 1) "late").leave emptyDiv

/-- The text that the visit of the `div` adds is visited in its turn. -/
theorem walk_descendants_late :
    ∃ z, walk appendLate .root (emptyDiv, ()) = .ok () z ∧
      Walked appendLate .root (emptyDiv, ()) (z.1.descendants .root) [] z ∧
      z.1.descendants .root = [.root, .ofNat 1, .ofNat 2] := by
  have hstart : Walked appendLate .root (emptyDiv, ()) [] [.root] (emptyDiv, ()) := .start
  have hroot : Walked appendLate .root (emptyDiv, ()) [.root] [.ofNat 1] (emptyDiv, ()) :=
    .visit hstart (by decide +kernel) rfl
  have hdiv : Walked appendLate .root (emptyDiv, ()) [.root, .ofNat 1] [.ofNat 2] (lateDiv, ()) :=
    .visit hroot (by decide +kernel) rfl
  have htext : Walked appendLate .root (emptyDiv, ()) [.root, .ofNat 1, .ofNat 2] []
      (lateDiv, ()) :=
    .visit hdiv (by decide +kernel) rfl
  have hempty : emptyDiv.size ≤ NodeId.bound ∧ emptyDiv.defect? = none := by decide +kernel
  have hlate : lateDiv.size ≤ NodeId.bound ∧ lateDiv.defect? = none := by decide +kernel
  have hsame : ∀ t : Tree, t.size ≤ NodeId.bound ∧ t.defect? = none → ∀ id, t.Mended id t :=
    fun _ h _ => ⟨h.1, h.2, fun _ _ _ _ => rfl⟩
  have hvisit : ∀ visited id pending y,
      Walked appendLate .root (emptyDiv, ()) visited (id :: pending) y →
      ∃ z, appendLate id y = .ok () z ∧ y.1.Mended id z.1 := by
    intro visited id pending y h
    have hlen := h.length_le htext (Or.inl rfl)
    -- the four stages of this walk, told apart by how many nodes were visited
    match visited, hlen with
    | [], _ =>
      obtain ⟨rfl, rfl⟩ := h.unique_next hstart rfl
      exact ⟨_, rfl, hsame _ hempty _⟩
    | [_], _ =>
      obtain ⟨rfl, rfl⟩ := h.unique_next hroot rfl
      refine ⟨(lateDiv, ()), rfl, hlate.1, hlate.2, ?_⟩
      have hother : ∀ p ∈ emptyDiv.descendants .root, p ≠ .ofNat 1 →
          lateDiv.children p = emptyDiv.children p := by decide +kernel
      exact fun p hp hne _ => hother p hp hne
    | [_, _], _ =>
      obtain ⟨rfl, rfl⟩ := h.unique_next hdiv rfl
      exact ⟨_, rfl, hsame _ hlate _⟩
    | [_, _, _], _ =>
      obtain ⟨-, heq, -⟩ := h.unique htext rfl
      cases heq
  obtain ⟨-, z, hrun, hwalked⟩ := walk_descendants appendLate (emptyDiv, ()) hempty.1 hempty.2
    hvisit
  have hlen := Nat.le_antisymm (hwalked.length_le htext (Or.inl rfl))
    (htext.length_le hwalked (Or.inl rfl))
  exact ⟨z, hrun, hwalked, (hwalked.unique htext hlen).1⟩

end DocTree
