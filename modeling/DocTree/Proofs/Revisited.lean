import DocTree.Proofs.Mutations
import DocTree.Proofs.Walked
set_option autoImplicit false

/-!
# Revisited: what it means that a walk is stopped

A walk is stopped when it has made as many visits as there are nodes and has still one before
it.  Then it has come to some node a second time.  If the visits change the tree as its users
do, and leave a document after each change, then one of them has taken a node out of its place
that the walk had visited or had before it already (`revisited_of_circular`).  No links lead in
a circle for that (`not_circular_only_of_below`).
-/

namespace DocTree

open DocTree.Tree

/-! ## Visits made of changes -/

section Visits

variable {σ : Type}

/-- The visit that makes the changes of a plan.  What is planned may depend on all that the
visit finds, the number of the node, the tree and the state beside it. -/
def visitOf (plan : NodeId → Tree × σ → List Mutation × σ) (id : NodeId) : Pass σ Unit := fun x =>
  match Mutation.run (plan id x).1 x.1 with
  | .ok _ u => .ok () (u, (plan id x).2)
  | .error fault u => .error fault (u, (plan id x).2)

/-- A walk that has visited `visited` and has the subtrees at `pending` before it visits `id`,
which it finds in the state `y`. -/
structure Visits (visit : NodeId → Pass σ Unit) (start : NodeId) (x : Tree × σ)
    (visited : List NodeId) (id : NodeId) (pending : List NodeId) (y : Tree × σ) : Prop where
  stage : Walked visit start x visited (id :: pending) y
  room : visited.length < y.1.size

/-- The numbers are distinct and no link of the document is broken. -/
structure Tree.Valid (t : Tree) : Prop where
  size_le : t.size ≤ NodeId.bound
  links : t.defect? = none

variable {plan : NodeId → Tree × σ → List Mutation × σ} {x y z : Tree × σ} {id : NodeId}
  {visited pending : List NodeId}

theorem run_of_visitOf (h : visitOf plan id y = .ok () z) :
    Mutation.run (plan id y).1 y.1 = .ok () z.1 := by
  unfold visitOf at h
  cases hrun : Mutation.run (plan id y).1 y.1 with
  | ok _ u =>
    rw [hrun] at h
    cases h
    rfl
  | error fault u =>
    rw [hrun] at h
    cases h

theorem visitOf_ne_circular {i : NodeId} : visitOf plan id y ≠ .error (.circular i) z := by
  intro h
  unfold visitOf at h
  cases hrun : Mutation.run (plan id y).1 y.1 with
  | ok _ u =>
    rw [hrun] at h
    cases h
  | error fault u =>
    rw [hrun] at h
    cases h
    cases Mutation.stopsOutside_run _ _ _ _ hrun

end Visits

/-! ## The nodes that a walk has come to -/

/-- By a visit a walk comes to the children of the node and to nothing else. -/
theorem perm_visited (visited : List NodeId) (id : NodeId) (children pending : List NodeId) :
    ((visited ++ [id]) ++ (children ++ pending)).Perm (children ++ (visited ++ id :: pending)) := by
  rw [List.append_cons visited id pending]
  exact List.perm_append_comm_assoc _ _ _

/-- A walk through `t` that has visited `visited` and has the subtrees at `pending` before it
has come to all of these nodes once, and to each but the document from its parent. -/
structure Tree.Followed (t : Tree) (visited pending : List NodeId) : Prop where
  linked : t.WellLinked
  valid : t.Valid
  nodup : (visited ++ pending).Nodup
  parent : ∀ c ∈ visited ++ pending, c ≠ .root → ∃ p ∈ visited, t.parent? c = some p
  below : ∀ c ∈ visited ++ pending, c ≠ .root → t.Below .root c

namespace Tree.Followed

variable {t u : Tree} {visited pending nodes : List NodeId} {id : NodeId}

theorem start (hlinked : t.WellLinked) (hvalid : t.Valid) : t.Followed [] [.root] where
  linked := hlinked
  valid := hvalid
  nodup := List.nodup_singleton _
  parent := fun _ hc hne => absurd (List.mem_singleton.1 hc) hne
  below := fun _ hc hne => absurd (List.mem_singleton.1 hc) hne

theorem index_lt (h : t.Followed visited pending) {c : NodeId} (hc : c ∈ visited ++ pending) :
    c.index < t.size := by
  by_cases hroot : c = .root
  · rw [hroot, NodeId.index_root]
    exact t.size_pos
  · obtain ⟨p, -, hp⟩ := h.parent c hc hroot
    exact index_lt_of_parent? hp

/-- While a node is before it, the walk has not come to as many nodes as there are. -/
theorem length_lt (h : t.Followed visited (id :: pending)) : visited.length < t.size := by
  have hle := length_le_size_of_nodup h.nodup fun c hc => h.index_lt hc
  rw [List.length_append, List.length_cons] at hle
  omega

/-- To a node below the document the walk has come from the node of which it is a child. -/
theorem mem_visited (h : t.Followed visited pending) {p c : NodeId} (hc : c ∈ visited ++ pending)
    (hbelow : t.Below .root c) (hpc : c ∈ t.children p) : p ∈ visited := by
  have hne : c ≠ .root := fun heq =>
    not_below_root_of_defect?_eq_none h.valid.links (heq ▸ hbelow)
  obtain ⟨q, hq, hqc⟩ := h.parent c hc hne
  obtain rfl := Option.some.inj ((h.linked.mem_children_iff.1 hpc).symm.trans hqc)
  exact hq

/-- Where all the nodes have their parents as before, they are below the document as before: the
nodes on the way there are visited. -/
theorem below_of_parent (h : t.Followed visited pending) (hlinked : u.WellLinked)
    (hparent : ∀ c ∈ visited ++ pending, u.parent? c = t.parent? c) {c : NodeId}
    (hbelow : t.Below .root c) (hc : c ∈ visited ++ pending) : u.Below .root c := by
  have hchild : ∀ {p c : NodeId}, c ∈ visited ++ pending → c ∈ t.children p → c ∈ u.children p :=
    fun hc hpc => hlinked.mem_children_iff.2
      ((hparent _ hc).trans (h.linked.mem_children_iff.1 hpc))
  induction hbelow with
  | single hpc => exact .single (hchild hc hpc)
  | tail hbelow hpc ih =>
    have hp := h.mem_visited hc (.tail hbelow hpc) hpc
    exact (ih (List.mem_append_left _ hp)).tail (hchild hc hpc)

/-- Changes that give none of the nodes another parent leave the walk where it is. -/
theorem reparents (h : t.Followed visited pending) (hu : t.Reparents nodes u) (hvalid : u.Valid)
    (hnodes : ∀ c ∈ visited ++ pending, c ∉ nodes) : u.Followed visited pending := by
  have hparent : ∀ c ∈ visited ++ pending, u.parent? c = t.parent? c := fun c hc =>
    hu.parent c (h.index_lt hc) (hnodes c hc)
  refine ⟨hu.linked, hvalid, h.nodup, fun c hc hne => ?_, fun c hc hne => ?_⟩
  · rw [hparent c hc]
    exact h.parent c hc hne
  · exact h.below_of_parent hu.linked hparent (h.below c hc hne) hc

/-- The children of the next node are nodes that the walk has not come to before. -/
theorem step (h : t.Followed visited (id :: pending)) :
    t.Followed (visited ++ [id]) (t.children id ++ pending) := by
  have hid : id ∈ visited ++ id :: pending := List.mem_append_right _ List.mem_cons_self
  have hbelow : ∀ c ∈ t.children id, t.Below .root c := by
    intro c hc
    by_cases hroot : id = .root
    · exact .single (hroot ▸ hc)
    · exact (h.below id hid hroot).tail hc
  have hnew : ∀ c ∈ t.children id, c ∉ visited ++ id :: pending := by
    intro c hc hmem
    have hvisited := h.mem_visited hmem (hbelow c hc) hc
    exact (List.nodup_append.1 h.nodup).2.2 _ hvisited _ List.mem_cons_self rfl
  have hperm := perm_visited visited id (t.children id) pending
  refine ⟨h.linked, h.valid, ?_, fun c hc hne => ?_, fun c hc hne => ?_⟩
  · rw [hperm.nodup_iff]
    refine List.nodup_append.2 ⟨(h.linked.kids id).nodup, h.nodup, fun c hc d hd heq => ?_⟩
    exact hnew c hc (heq ▸ hd)
  · rcases List.mem_append.1 (hperm.mem_iff.1 hc) with hc | hc
    · exact ⟨id, List.mem_append_right _ List.mem_cons_self, h.linked.mem_children_iff.1 hc⟩
    · obtain ⟨p, hp, hpc⟩ := h.parent c hc hne
      exact ⟨p, List.mem_append_left _ hp, hpc⟩
  · rcases List.mem_append.1 (hperm.mem_iff.1 hc) with hc | hc
    · exact hbelow c hc
    · exact h.below c hc hne

end Tree.Followed

/-! ## Why a walk is stopped -/

section Stopped

variable {σ : Type} {plan : NodeId → Tree × σ → List Mutation × σ} {x y : Tree × σ}
  {visited pending : List NodeId}

/-- All that a walk has come to belongs to the row, which stays well linked. -/
theorem Walked.linked (h : Walked (visitOf plan) .root x visited pending y)
    (hlinked : x.1.WellLinked)
    (hplan : ∀ visited id pending y, Visits (visitOf plan) .root x visited id pending y →
      Mutation.Keeps Tree.Valid (plan id y).1 y.1) :
    y.1.WellLinked ∧ ∀ c ∈ visited ++ pending, c.index < y.1.size := by
  induction h with
  | start =>
    refine ⟨hlinked, fun c hc => ?_⟩
    rw [List.mem_singleton.1 hc, NodeId.index_root]
    exact x.1.size_pos
  | @visit visited pending id y z h hroom hrun ih =>
    obtain ⟨hlinked, hin⟩ := ih
    have hkeeps := hplan _ _ _ _ ⟨h, hroom⟩
    have hrun := run_of_visitOf hrun
    have hu := Mutation.reparents_run hlinked (hkeeps.imp fun _ h => h.size_le) hrun
    refine ⟨hu.linked, fun c hc => ?_⟩
    rcases List.mem_append.1 ((perm_visited ..).mem_iff.1 hc) with hc | hc
    · exact (hu.linked.kids id).index_lt hc
    · exact Nat.lt_of_lt_of_le (hin c hc) hu.size_le

/-- As long as the visits take no node that the walk has come to, it comes to none again. -/
theorem Walked.followed (h : Walked (visitOf plan) .root x visited pending y)
    (hlinked : x.1.WellLinked) (hvalid : x.1.Valid)
    (hplan : ∀ visited id pending y, Visits (visitOf plan) .root x visited id pending y →
      Mutation.Keeps Tree.Valid (plan id y).1 y.1 ∧
        ∀ c ∈ visited ++ id :: pending, c ∉ (plan id y).1.flatMap Mutation.taken) :
    y.1.Followed visited pending := by
  induction h with
  | start => exact .start hlinked hvalid
  | @visit visited pending id y z h hroom hrun ih =>
    obtain ⟨hkeeps, hfree⟩ := hplan _ _ _ _ ⟨h, hroom⟩
    have hrun := run_of_visitOf hrun
    have hu := Mutation.reparents_run ih.linked (hkeeps.imp fun _ h => h.size_le) hrun
    exact (ih.reparents hu (hkeeps.run ih.valid hrun) hfree).step

/-- If every change that the visits make leaves the document without a broken link, a walk that is
stopped has come to a node a second time, and before that it has made a change that took a node
to which it had come out of its place. -/
theorem revisited_of_circular (plan : NodeId → Tree × σ → List Mutation × σ) (x y : Tree × σ)
    (id : NodeId) (hlinked : x.1.WellLinked) (hvalid : x.1.Valid)
    (hplan : ∀ visited id pending y, Visits (visitOf plan) .root x visited id pending y →
      Mutation.Keeps Tree.Valid (plan id y).1 y.1)
    (hrun : walk (visitOf plan) .root x = .error (.circular id) y) :
    (∃ visited pending, Walked (visitOf plan) .root x visited (id :: pending) y ∧
      ¬ (visited ++ [id]).Nodup) ∧
    ∃ visited i pending z, Visits (visitOf plan) .root x visited i pending z ∧
      ∃ c ∈ (plan i z).1.flatMap Mutation.taken, c ∈ visited ++ i :: pending := by
  obtain ⟨visited, pending, hstage, hfull⟩ : ∃ visited pending,
      Walked (visitOf plan) .root x visited (id :: pending) y ∧ y.1.size ≤ visited.length := by
    rcases walk_cases (visitOf plan) .root x with ⟨_, _, _, hok, -⟩ | ⟨fault, z, herror, hstop⟩
    · rw [hok] at hrun
      cases hrun
    · rw [herror] at hrun
      cases hrun
      cases hstop with
      | circular h hfull => exact ⟨_, _, h, hfull⟩
      | visit _ _ hvisit => exact absurd hvisit visitOf_ne_circular
  refine ⟨⟨visited, pending, hstage, fun hnodup => ?_⟩, ?_⟩
  · obtain ⟨-, hin⟩ := hstage.linked hlinked hplan
    have hle := length_le_size_of_nodup hnodup fun c hc => hin c (by
      rw [List.append_cons]
      exact List.mem_append_left _ hc)
    rw [List.length_append, List.length_singleton] at hle
    omega
  · by_contra hnone
    have hfollowed := hstage.followed hlinked hvalid fun visited i pending z h =>
      ⟨hplan visited i pending z h, fun c hc htaken =>
        hnone ⟨visited, i, pending, z, h, c, htaken, hc⟩⟩
    exact absurd hfollowed.length_lt (Nat.not_lt.2 hfull)

end Stopped

/-! ## A walk that is stopped without a circle -/

/-- Where all nodes belong to a document without a broken link, none stands below itself. -/
theorem Tree.not_below_self_of_attached {t : Tree} (hlinks : t.defect? = none)
    (hall : ∀ i < t.size, NodeId.ofNat i ∈ t.descendants .root) (c : NodeId) : ¬ t.Below c c := by
  intro hbelow
  have hin : c.index < t.size := by
    by_contra hout
    obtain ⟨d, hd, -⟩ := Relation.TransGen.head'_iff.1 hbelow
    rw [(hasKids_nil_of_size_le (Nat.not_lt.1 hout)).children_eq] at hd
    cases hd
  have hc := hall c.index hin
  rw [NodeId.index_inj.1 (NodeId.index_ofNat c.index_lt)] at hc
  obtain ⟨r, hr, hnodup, hroot⟩ := defect?_eq_none_iff_holds.1 hlinks
  rw [hr.descendants_root hroot hnodup] at hc
  exact hr.not_below_self hnodup hc hbelow

/-- The calls that make a document of a `div` and a `p`. -/
def callsForPair : List Call :=
  [.createHtml "div", .append .root (.ofNat 1), .createHtml "p", .append .root (.ofNat 2)]

def pairRow : Tree := (Call.afterAll (Tree.new, #[]) callsForPair).1

/-- The `div` of `pairRow` stands in the `p`. -/
def crossedRow : Tree := (Edit.append (.ofNat 2) (.ofNat 1)).leave pairRow

/-- The visit of the `div` moves it into the `p`, to which the walk has not gone yet. -/
def crossing (id : NodeId) (x : Tree × Unit) : List Mutation × Unit :=
  (if id = .ofNat 1 then [.append (.ofNat 2) id] else [], x.2)

namespace Crossing

theorem walked_pair : Walked (visitOf crossing) .root (pairRow, ()) [.root]
    [.ofNat 1, .ofNat 2] (pairRow, ()) :=
  have hstart : Walked (visitOf crossing) .root (pairRow, ()) [] [.root] (pairRow, ()) := .start
  .visit hstart (by decide +kernel) rfl

theorem walked_crossed : Walked (visitOf crossing) .root (pairRow, ()) [.root, .ofNat 1]
    [.ofNat 2] (crossedRow, ()) :=
  .visit walked_pair (by decide +kernel) rfl

theorem walked_back : Walked (visitOf crossing) .root (pairRow, ()) [.root, .ofNat 1, .ofNat 2]
    [.ofNat 1] (crossedRow, ()) :=
  .visit walked_crossed (by decide +kernel) rfl

/-- The walk comes back to the `div` and is stopped before it would visit it again. -/
theorem walk_eq_circular :
    walk (visitOf crossing) .root (pairRow, ()) = .error (.circular (.ofNat 1)) (crossedRow, ()) :=
  walked_back.walk_eq_circular (by decide +kernel) (by decide)

theorem visits_cases {visited pending : List NodeId} {id : NodeId} {y : Tree × Unit}
    (h : Visits (visitOf crossing) .root (pairRow, ()) visited id pending y) :
    (id = .ofNat 1 ∧ y = (pairRow, ())) ∨ id ≠ .ofNat 1 := by
  have hlen := h.stage.length_le walked_back (Or.inr (by decide +kernel))
  -- the four stages of this walk, told apart by how many nodes were visited
  match visited, hlen with
  | [], _ =>
    obtain ⟨rfl, -⟩ := h.stage.unique_next .start rfl
    exact Or.inr (by decide)
  | [_], _ =>
    exact Or.inl (h.stage.unique_next walked_pair rfl)
  | [_, _], _ =>
    obtain ⟨rfl, -⟩ := h.stage.unique_next walked_crossed rfl
    exact Or.inr (by decide)
  | [_, _, _], _ =>
    obtain ⟨-, rfl⟩ := h.stage.unique_next walked_back rfl
    have hsize : crossedRow.size = 3 := by decide +kernel
    exact absurd (hsize ▸ h.room) (Nat.lt_irrefl 3)

/-- The only change that is made leads from `pairRow` to `crossedRow`. -/
theorem keeps {P : Tree → Prop} (hP : P crossedRow) (visited : List NodeId) (id : NodeId)
    (pending : List NodeId) (y : Tree × Unit)
    (h : Visits (visitOf crossing) .root (pairRow, ()) visited id pending y) :
    Mutation.Keeps P (crossing id y).1 y.1 := by
  have hrun : Edit.append (.ofNat 2) (.ofNat 1) pairRow = .ok () crossedRow := rfl
  rcases visits_cases h with ⟨rfl, rfl⟩ | hne
  · intro u hu
    cases hrun.symm.trans hu
    exact ⟨hP, trivial⟩
  · unfold crossing
    rw [if_neg hne]
    trivial

theorem wellLinked_pairRow : pairRow.WellLinked :=
  (Call.sound_afterAll callsForPair sound_new (by decide +kernel)).linked

theorem valid_pairRow : pairRow.Valid := ⟨by decide +kernel, by decide +kernel⟩

theorem valid_crossedRow : crossedRow.Valid := ⟨by decide +kernel, by decide +kernel⟩

end Crossing

/-- The walk is stopped at the `div`, which was taken out of its place by its own visit. -/
theorem revisited_of_circular_crossing :
    walk (visitOf crossing) .root (pairRow, ()) = .error (.circular (.ofNat 1)) (crossedRow, ()) ∧
    (∃ visited pending, Walked (visitOf crossing) .root (pairRow, ()) visited (.ofNat 1 :: pending)
      (crossedRow, ()) ∧ ¬ (visited ++ [NodeId.ofNat 1]).Nodup) ∧
    ∃ visited i pending z, Visits (visitOf crossing) .root (pairRow, ()) visited i pending z ∧
      ∃ c ∈ (crossing i z).1.flatMap Mutation.taken, c ∈ visited ++ i :: pending :=
  ⟨Crossing.walk_eq_circular, revisited_of_circular crossing (pairRow, ()) (crossedRow, ())
    (.ofNat 1) Crossing.wellLinked_pairRow Crossing.valid_pairRow
    (Crossing.keeps Crossing.valid_crossedRow) Crossing.walk_eq_circular⟩

/-- That a walk is stopped does not mean that a node stands below itself, not even that one ever
did: between the visits of `crossing` there is a document without a broken link, and no node
stands below itself. -/
theorem not_circular_only_of_below :
    ¬ ∀ (σ : Type) (plan : NodeId → Tree × σ → List Mutation × σ) (x : Tree × σ), x.1.Valid →
      (∀ visited id pending y, Visits (visitOf plan) .root x visited id pending y →
        Mutation.Keeps (fun u => u.Valid ∧ ∀ c, ¬ u.Below c c) (plan id y).1 y.1) →
      ∀ id y, walk (visitOf plan) .root x ≠ .error (.circular id) y := by
  intro h
  have hapart : ∀ c, ¬ crossedRow.Below c c :=
    Tree.not_below_self_of_attached Crossing.valid_crossedRow.links (by decide +kernel)
  exact h Unit crossing (pairRow, ()) Crossing.valid_pairRow
    (Crossing.keeps ⟨Crossing.valid_crossedRow, hapart⟩) _ _ Crossing.walk_eq_circular

end DocTree
