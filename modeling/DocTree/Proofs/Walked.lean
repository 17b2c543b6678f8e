import DocTree.Edit.Walk
set_option autoImplicit false

/-!
# Walked: the course of a walk

`Walked visit start x visited pending y` says where a walk is after the visits at `visited`:
which subtrees it has still before it and in which state it is.  A walk has one course only
(`Walked.unique`), `walk` follows it, and what `walk` answers is read off its last stage
(`walk_cases`).
-/

namespace DocTree

variable {σ : Type} {visit : NodeId → Pass σ Unit} {start : NodeId} {x y z : Tree × σ}
  {visited pending : List NodeId}

/-- A walk that began at `start` in the state `x` has visited `visited`, one after another, has
the subtrees at `pending` before it, and is in the state `y`. -/
inductive Walked (visit : NodeId → Pass σ Unit) (start : NodeId) (x : Tree × σ) :
    List NodeId → List NodeId → Tree × σ → Prop where
  | start : Walked visit start x [] [start] x
  | visit {visited pending : List NodeId} {id : NodeId} {y z : Tree × σ}
    (h : Walked visit start x visited (id :: pending) y) (hroom : visited.length < y.1.size)
    (hrun : visit id y = .ok () z) :
    Walked visit start x (visited ++ [id]) (z.1.children id ++ pending) z

/-- The walk is stopped: by a number of visits that the row does not allow, or by a visit. -/
inductive WalkStops (visit : NodeId → Pass σ Unit) (start : NodeId) (x : Tree × σ) :
    Fault → Tree × σ → Prop where
  | circular {visited pending : List NodeId} {id : NodeId} {y : Tree × σ}
    (h : Walked visit start x visited (id :: pending) y) (hroom : y.1.size ≤ visited.length) :
    WalkStops visit start x (.circular id) y
  | visit {visited pending : List NodeId} {id : NodeId} {fault : Fault} {y z : Tree × σ}
    (h : Walked visit start x visited (id :: pending) y) (hroom : visited.length < y.1.size)
    (hrun : visit id y = .error fault z) : WalkStops visit start x fault z

/-! ## One course -/

namespace Walked

/-- After equally many visits a walk is at the same stage. -/
theorem unique {visited' pending' : List NodeId} (h : Walked visit start x visited pending y)
    (h' : Walked visit start x visited' pending' z) (hlen : visited.length = visited'.length) :
    visited = visited' ∧ pending = pending' ∧ y = z := by
  induction h generalizing visited' pending' z with
  | start =>
    cases h' with
    | start => exact ⟨rfl, rfl, rfl⟩
    | visit _ _ _ => simp at hlen
  | visit _ _ hrun ih =>
    cases h' with
    | start => simp at hlen
    | visit h' _ hrun' =>
      obtain ⟨rfl, hpending, rfl⟩ := ih h' (by simpa using hlen)
      obtain ⟨rfl, rfl⟩ := List.cons.inj hpending
      rw [hrun] at hrun'
      cases hrun'
      exact ⟨rfl, rfl, rfl⟩

/-- After equally many visits it comes to the same node, in the same state. -/
theorem unique_next {visited' pending' : List NodeId} {id id' : NodeId}
    (h : Walked visit start x visited (id :: pending) y)
    (h' : Walked visit start x visited' (id' :: pending') z)
    (hlen : visited.length = visited'.length) : id = id' ∧ y = z := by
  obtain ⟨-, hpending, hstate⟩ := h.unique h' hlen
  exact ⟨(List.cons.inj hpending).1, hstate⟩

/-- No stage comes after one at which there is nothing left to visit, or no room for a visit. -/
theorem length_le {visited' pending' : List NodeId} (h : Walked visit start x visited pending y)
    (h' : Walked visit start x visited' pending' z)
    (hlast : pending' = [] ∨ z.1.size ≤ visited'.length) : visited.length ≤ visited'.length := by
  induction h with
  | start => exact Nat.zero_le _
  | visit h hroom _ ih =>
    rw [List.length_append, List.length_singleton]
    refine Nat.lt_of_le_of_ne ih fun hlen => ?_
    obtain ⟨rfl, rfl, rfl⟩ := h.unique h' hlen
    rcases hlast with hnil | hfull
    · cases hnil
    · omega

end Walked

/-! ## What the walk answers -/

theorem walkFrom_succ_cons {t u : Tree} {s s' : σ} {id : NodeId} {steps count : Nat}
    (hroom : count + 1 ≤ t.size) (hvisit : visit id (t, s) = .ok () (u, s')) :
    walkFrom visit (steps + 1) count (id :: pending) (t, s) =
      walkFrom visit steps (count + 1) (u.children id ++ pending) (u, s') := by
  have hroom' : ¬ t.size < count + 1 := Nat.not_lt.2 hroom
  simp only [walkFrom, bind_apply, Pass.tree_apply, if_neg hroom', hvisit]

/-- A walk that is long enough comes to its end behind the last pending node. -/
theorem walkFrom_eq_ok {t u : Tree} {s s' : σ} {visits : Nat} (hvisits : visits < walkLimit)
    (h : ∀ steps, walkFrom visit (steps + visits) 0 [start] (t, s) =
      walkFrom visit steps visits [] (u, s')) :
    walkFrom visit walkLimit 0 [start] (t, s) = .ok [] (u, s') := by
  obtain ⟨steps, hsteps⟩ : ∃ steps, walkLimit = (steps + 1) + visits :=
    ⟨walkLimit - visits - 1, by omega⟩
  rw [hsteps, h]
  rfl

theorem walkFrom_of_full {id : NodeId} {steps count : Nat} (hfull : y.1.size ≤ count) :
    walkFrom visit (steps + 1) count (id :: pending) y = .error (.circular id) y := by
  have hroom : y.1.size < count + 1 := Nat.lt_succ_of_le hfull
  simp only [walkFrom, bind_apply, Pass.tree_apply, if_pos hroom, throw_apply]

theorem walkFrom_of_error {id : NodeId} {steps count : Nat} {fault : Fault}
    (hroom : count < y.1.size) (hrun : visit id y = .error fault z) :
    walkFrom visit (steps + 1) count (id :: pending) y = .error fault z := by
  have hroom' : ¬ y.1.size < count + 1 := Nat.not_lt.2 hroom
  simp only [walkFrom, bind_apply, Pass.tree_apply, if_neg hroom', hrun]

/-- From any stage on, the walk goes on to a later one. -/
theorem Walked.walkFrom_cases (h : Walked visit start x visited pending y) (steps : Nat) :
    match walkFrom visit steps visited.length pending y with
    | .ok rest z => ∃ ids, Walked visit start x ids rest z ∧
        (rest = [] ∨ ids.length = visited.length + steps)
    | .error fault z => WalkStops visit start x fault z := by
  induction steps generalizing visited pending y with
  | zero => exact ⟨visited, h, Or.inr rfl⟩
  | succ steps ih =>
    cases pending with
    | nil => exact ⟨visited, h, Or.inl rfl⟩
    | cons id pending =>
      rcases Nat.lt_or_ge visited.length y.1.size with hroom | hfull
      · cases hrun : visit id y with
        | ok _ z =>
          have hnext := ih (h.visit hroom hrun)
          rw [List.length_append, List.length_singleton] at hnext
          rw [walkFrom_succ_cons hroom hrun, Nat.add_comm steps 1, ← Nat.add_assoc]
          exact hnext
        | error fault z =>
          rw [walkFrom_of_error hroom hrun]
          exact .visit h hroom hrun
      · rw [walkFrom_of_full hfull]
        exact .circular h hfull

/-- To run a walk from its start on is to run it from any of its stages on. -/
theorem Walked.walkFrom_eq (h : Walked visit start x visited pending y) (steps : Nat) :
    walkFrom visit (visited.length + steps) 0 [start] x =
      walkFrom visit steps visited.length pending y := by
  induction h generalizing steps with
  | start => rw [List.length_nil, Nat.zero_add]
  | visit _ hroom hrun ih =>
    rw [List.length_append, List.length_singleton, Nat.add_assoc, Nat.add_comm 1 steps, ih,
      walkFrom_succ_cons hroom hrun]

theorem walk_eq (visit : NodeId → Pass σ Unit) (start : NodeId) (x : Tree × σ) :
    walk visit start x = match walkFrom visit walkLimit 0 [start] x with
      | .ok _ z => .ok () z
      | .error fault z => .error fault z := by
  simp only [walk, bind_apply]
  cases walkFrom visit walkLimit 0 [start] x <;> rfl

/-- At a stage where there is no room for the next visit the walk is stopped. -/
theorem Walked.walk_eq_circular {id : NodeId}
    (h : Walked visit start x visited (id :: pending) y) (hfull : y.1.size ≤ visited.length)
    (hlen : visited.length < walkLimit) :
    walk visit start x = .error (.circular id) y := by
  obtain ⟨steps, hsteps⟩ : ∃ steps, walkLimit = visited.length + (steps + 1) :=
    ⟨walkLimit - visited.length - 1, by omega⟩
  rw [walk_eq, hsteps, h.walkFrom_eq, walkFrom_of_full hfull]

/-- A walk comes to the end of its course, or to more visits than there can be nodes, or it is
stopped. -/
theorem walk_cases (visit : NodeId → Pass σ Unit) (start : NodeId) (x : Tree × σ) :
    (∃ ids rest z, walk visit start x = .ok () z ∧ Walked visit start x ids rest z ∧
      (rest = [] ∨ ids.length = walkLimit)) ∨
    ∃ fault z, walk visit start x = .error fault z ∧ WalkStops visit start x fault z := by
  have hstart : Walked visit start x [] [start] x := .start
  have hcases := hstart.walkFrom_cases walkLimit
  rw [List.length_nil, Nat.zero_add] at hcases
  rw [walk_eq]
  cases hrun : walkFrom visit walkLimit 0 [start] x with
  | ok rest z =>
    rw [hrun] at hcases
    obtain ⟨ids, h, hlast⟩ := hcases
    exact Or.inl ⟨ids, rest, z, rfl, h, hlast⟩
  | error fault z =>
    rw [hrun] at hcases
    exact Or.inr ⟨fault, z, rfl, hcases⟩

end DocTree
