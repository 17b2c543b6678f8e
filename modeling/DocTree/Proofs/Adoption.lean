import DocTree.Proofs.ChildLists
set_option autoImplicit false

/-!
# Adoption: nodes that are appended one after another

Appending distinct nodes one after another takes each of them out of the list it stands in and
puts them, in their order, behind the other children of the new parent (`exists_appendAll`).  It
does not matter how many of them are in place already while the others still stand where they
stood, nor whether the new parent is one of them.

The children of a node that are moved to another one are such nodes.  If the other one is the
node itself, every child has been moved behind all the others in the end, and the row is what it
was (`moveChildren_of_runs`).
-/

namespace DocTree

namespace Tree

variable {t s u : Tree} {p c a b : NodeId} {ids ids' : List NodeId}

/-- `u` is `t` after the nodes `ids` left the lists they stood in and came behind the other
children of `p`, in their order. -/
structure Adopted (t : Tree) (p : NodeId) (ids : List NodeId) (u : Tree) : Prop where
  linked : u.WellLinked
  size : u.size = t.size
  payload : ∀ x, u.payload? x = t.payload? x
  parent : ∀ x, u.parent? x = if x ∈ ids then some p else t.parent? x
  kids : ∀ q, u.children q = (t.children q).filter (· ∉ ids) ++ if q = p then ids else []

namespace Adopted

theorem nil (h : t.WellLinked) (p : NodeId) : t.Adopted p [] t where
  linked := h
  size := rfl
  payload := fun _ => rfl
  parent := fun x => (if_neg List.not_mem_nil).symm
  kids := by
    intro q
    simp

/-- Nodes that are adopted later come behind those that were adopted before, which stay. -/
theorem trans (h : t.Adopted p ids s) (h' : s.Adopted p ids' u) (hnew : ids.Disjoint ids') :
    t.Adopted p (ids ++ ids') u where
  linked := h'.linked
  size := h'.size.trans h.size
  payload := fun x => (h'.payload x).trans (h.payload x)
  parent := by
    intro x
    rw [h'.parent, h.parent]
    grind
  kids := by
    intro q
    have hstay : ids.filter (· ∉ ids') = ids :=
      List.filter_eq_self.2 fun x hx => decide_eq_true (hnew hx)
    have hboth : ∀ xs : List NodeId,
        (xs.filter (· ∉ ids)).filter (· ∉ ids') = xs.filter (· ∉ ids ++ ids') := by
      intro xs
      rw [List.filter_filter]
      exact List.filter_congr fun x _ => by simp [Bool.and_comm]
    rw [h'.kids, h.kids, List.filter_append, hboth, List.append_assoc]
    split
    · rw [hstay]
    · rfl

end Adopted

namespace WellLinked

theorem exists_append_adopted (h : t.WellLinked) (hp : p.index < t.size) (hc : c.index < t.size) :
    ∃ u, Edit.append p c t = .ok () u ∧ t.Adopted p [c] u := by
  obtain ⟨u, hrun, hu⟩ := Edit.exists_append_of_placed (h.placed c) hc hp (h.kids p)
  refine ⟨u, hrun, h.movedTo hu (List.append_nil _).symm, hu.size, hu.payload, fun x => ?_,
    fun q => ?_⟩
  · by_cases hx : x = c
    · rw [if_pos (List.mem_singleton.2 hx), hx, hu.parent_self]
    · rw [if_neg (mt List.mem_singleton.1 hx), hu.parent x hx]
  · have hothers : ∀ q, (t.children q).erase c = (t.children q).filter (· ∉ [c]) := by
      intro q
      rw [(h.kids q).nodup.erase_eq_filter]
      exact List.filter_congr fun x _ => by rw [Bool.eq_iff_iff]; simp
    rw [h.children_movedTo hu, hothers, hothers]
    split
    · next hq => rw [hq]
    · rw [List.append_nil]

/-- Each node is taken out of a row in which those before it are in place already. -/
theorem exists_appendAll (h : t.WellLinked) (hp : p.index < t.size)
    (hids : ∀ c ∈ ids, c.index < t.size) (hnodup : ids.Nodup) :
    ∃ u, Edit.appendAll p ids t = .ok () u ∧ t.Adopted p ids u := by
  induction ids generalizing t with
  | nil => exact ⟨t, rfl, .nil h p⟩
  | cons c ids ih =>
    obtain ⟨hnew, hnodup⟩ := List.nodup_cons.1 hnodup
    obtain ⟨s, hfirst, hs⟩ := h.exists_append_adopted hp (hids c List.mem_cons_self)
    obtain ⟨u, hrest, hu⟩ := ih hs.linked (hs.size ▸ hp)
      (fun d hd => hs.size ▸ hids d (List.mem_cons_of_mem _ hd)) hnodup
    refine ⟨u, ?_, hs.trans hu (List.singleton_disjoint.2 hnew)⟩
    simp only [Edit.appendAll, bind_apply, hfirst, hrest]

end WellLinked

/-! ## All children of a node -/

/-- `u` is `t` after the children of `a` were handed over to another node `b`, which has them
behind its own. -/
structure HandedOver (t : Tree) (a b : NodeId) (u : Tree) : Prop where
  size : u.size = t.size
  payload : ∀ x, u.payload? x = t.payload? x
  parent_moved : ∀ c ∈ t.children a, u.parent? c = some b
  parent : ∀ x, x ∉ t.children a → u.parent? x = t.parent? x
  kids_taker : u.children b = t.children b ++ t.children a
  kids_giver : u.children a = []
  kids : ∀ q, q ≠ a → q ≠ b → u.children q = t.children q
  reads : u.ReadsBothWays

/-- The children of one node stand in no other list. -/
theorem WellLinked.filter_children (h : t.WellLinked) {q : NodeId} (hq : q ≠ a) :
    (t.children q).filter (· ∉ t.children a) = t.children q :=
  List.filter_eq_self.2 fun _ hx =>
    decide_eq_true ((h.kids q).not_mem_of_ne (h.kids a) hq hx)

theorem Adopted.handedOver (hu : t.Adopted b (t.children a) u) (h : t.WellLinked) (hne : a ≠ b) :
    t.HandedOver a b u where
  size := hu.size
  payload := hu.payload
  parent_moved := fun c hc => (hu.parent c).trans (if_pos hc)
  parent := fun x hx => (hu.parent x).trans (if_neg hx)
  kids_taker := by rw [hu.kids, if_pos rfl, h.filter_children hne.symm]
  kids_giver := by
    rw [hu.kids, if_neg hne, List.append_nil]
    exact List.filter_eq_nil_iff.2 fun x hx => by simp [hx]
  kids := by
    intro q hqa hqb
    rw [hu.kids, if_neg hqb, List.append_nil, h.filter_children hqa]
  reads := hu.linked.readsBothWays

/-- A node that adopts its own children in their order is as it was. -/
theorem Adopted.eq_self (hu : t.Adopted a (t.children a) u) (h : t.WellLinked)
    (hsize : t.size ≤ NodeId.bound) : u = t := by
  refine h.eq_of_children hu.linked (fun q => ?_) hu.payload hu.size hsize
  rw [hu.kids]
  split
  · next hq =>
    subst hq
    have hnone : (t.children q).filter (· ∉ t.children q) = [] :=
      List.filter_eq_nil_iff.2 fun x hx => by simp [hx]
    rw [hnone, List.nil_append]
  · next hq => rw [h.filter_children hq, List.append_nil]

end Tree

/-- After any calls with existing numbers, all children of a node can be moved to any other node,
which then has them in their order behind its own children, also if it is one of them or stands
below one of them; nothing else changes.  Moved to the node itself they leave the row as it is. -/
theorem moveChildren_of_runs (calls : List Call) (log : Log) (s : Tree × Log)
    (hrun : Runs calls (Tree.new, log) s) (hsize : s.1.size ≤ NodeId.bound) (a b : NodeId)
    (hb : b.index < s.1.size) :
    ∃ u, Edit.moveChildren a b s.1 = .ok () u ∧ (a ≠ b → s.1.HandedOver a b u) ∧
      (a = b → u = s.1) := by
  have hlinked := wellLinked_of_runs hrun hsize
  have hkids := hlinked.kids a
  obtain ⟨u, happend, hu⟩ := hlinked.exists_appendAll hb (fun c hc => hkids.index_lt hc) hkids.nodup
  refine ⟨u, happend, fun hne => hu.handedOver hlinked hne, ?_⟩
  rintro rfl
  exact hu.eq_self hlinked hsize

/-- The calls that make a list of an item, which has a text, and of another text. -/
def callsForAdoption : List Call :=
  [.createHtml "ul", .append .root (.ofNat 1), .createHtml "li", .append (.ofNat 1) (.ofNat 2),
    .appendText (.ofNat 2) "a", .appendText (.ofNat 1) "b"]

/-- What these calls leave. -/
def adoptionRow : Tree × Log := callsForAdoption.foldl (fun s c => c.after s) (Tree.new, #[])

/-- The children of the list are moved to its own item, which becomes its own child, to the text in
that item, and to the list itself. -/
theorem moveChildren_of_runs_nested :
    (∃ u, Edit.moveChildren (.ofNat 1) (.ofNat 2) adoptionRow.1 = .ok () u ∧
      u.children (.ofNat 2) = [.ofNat 3, .ofNat 2, .ofNat 4] ∧ u.children (.ofNat 1) = [] ∧
      u.parent? (.ofNat 2) = some (.ofNat 2)) ∧
    (∃ u, Edit.moveChildren (.ofNat 1) (.ofNat 3) adoptionRow.1 = .ok () u ∧
      u.children (.ofNat 3) = [.ofNat 2, .ofNat 4] ∧ u.children (.ofNat 2) = [.ofNat 3]) ∧
    Edit.moveChildren (.ofNat 1) (.ofNat 1) adoptionRow.1 = .ok () adoptionRow.1 := by
  have hrun : Runs callsForAdoption (Tree.new, #[]) adoptionRow :=
    runs_iff.2 ⟨by decide +kernel, rfl⟩
  have hsize : adoptionRow.1.size ≤ NodeId.bound := by decide +kernel
  have hlists : adoptionRow.1.children (.ofNat 1) = [.ofNat 2, .ofNat 4] ∧
      adoptionRow.1.children (.ofNat 2) = [.ofNat 3] ∧ adoptionRow.1.children (.ofNat 3) = [] := by
    decide +kernel
  obtain ⟨hlist, hitem, htext⟩ := hlists
  refine ⟨?_, ?_, ?_⟩
  · obtain ⟨u, hmove, hu, -⟩ := moveChildren_of_runs callsForAdoption #[] adoptionRow hrun hsize
      (.ofNat 1) (.ofNat 2) (by decide +kernel)
    have hover := hu (by decide)
    refine ⟨u, hmove, ?_, hover.kids_giver, hover.parent_moved _ (hlist ▸ by decide)⟩
    rw [hover.kids_taker, hitem, hlist]
    rfl
  · obtain ⟨u, hmove, hu, -⟩ := moveChildren_of_runs callsForAdoption #[] adoptionRow hrun hsize
      (.ofNat 1) (.ofNat 3) (by decide +kernel)
    have hover := hu (by decide)
    refine ⟨u, hmove, ?_, (hover.kids _ (by decide) (by decide)).trans hitem⟩
    rw [hover.kids_taker, htext, hlist]
    rfl
  · obtain ⟨u, hmove, -, hu⟩ := moveChildren_of_runs callsForAdoption #[] adoptionRow hrun hsize
      (.ofNat 1) (.ofNat 1) (by decide +kernel)
    rw [hmove, hu rfl]

end DocTree
