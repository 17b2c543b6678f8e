import DocTree.Edit.Placement
import DocTree.Edit.Walk
import DocTree.Proofs.WellLinked
set_option autoImplicit false

/-!
# Upholds: what programs of edits keep

`Upholds E P e Q` is a triple for computations that may stop with a fault: from a state
with `P` the computation `e` answers a value in a state described by `Q`, or stops in a
state with `E`.  The second half carries the property kept by edits, `Safe`: the row is
well linked and the numbers in use belong to it, provided that the numbers of its nodes
are distinct.
-/

namespace DocTree

variable {σ τ α β : Type}

/-! ## Triples -/

/-- From every state with `P`, the computation answers some `a` in a state with `Q a`, or
stops with a fault in a state with `E`. -/
def Upholds (E P : σ → Prop) (e : EStateM Fault σ α) (Q : α → σ → Prop) : Prop :=
  ∀ s, P s → match e s with
    | .ok a u => Q a u
    | .error _ u => E u

namespace Upholds

variable {E P P' : σ → Prop} {Q Q' : α → σ → Prop} {R : β → σ → Prop}
  {e : EStateM Fault σ α} {f : α → EStateM Fault σ β}

theorem bind (he : Upholds E P e Q) (hf : ∀ a, Upholds E (Q a) (f a) R) :
    Upholds E P (e >>= f) R := by
  intro s hs
  have hes := he s hs
  simp only [bind_apply]
  cases hrun : e s with
  | ok a u =>
    rw [hrun] at hes
    exact hf a u hes
  | error fault u =>
    rw [hrun] at hes
    exact hes

theorem pure (a : α) (h : ∀ s, P s → Q a s) : Upholds E P (Pure.pure a) Q := h

theorem throw (fault : Fault) (h : ∀ s, P s → E s) :
    Upholds E P (MonadExcept.throw fault : EStateM Fault σ α) Q := h

theorem get : Upholds E P (MonadState.get : EStateM Fault σ σ) fun a s => P s ∧ a = s :=
  fun _ hs => ⟨hs, rfl⟩

/-- A node that is looked at is the one in the row. -/
theorem look {P : Tree → Prop} (id : NodeId) :
    Upholds P P (Edit.look id) fun n t => P t ∧ t.node? id = some n := by
  intro t ht
  unfold Edit.look
  cases hn : t.node? id with
  | none => exact ht
  | some n => exact ⟨ht, hn⟩

theorem weaken (h : Upholds E P e Q) (hP : ∀ s, P' s → P s) (hQ : ∀ a s, Q a s → Q' a s) :
    Upholds E P' e Q' := by
  intro s hs
  have hes := h s (hP s hs)
  cases hrun : e s with
  | ok a u =>
    rw [hrun] at hes
    exact hQ a u hes
  | error fault u =>
    rw [hrun] at hes
    exact hes

/-- An edit inside a pass. -/
theorem edit {E P : Tree → Prop} {Q : α → Tree → Prop} {e : Edit α} (h : Upholds E P e Q) :
    Upholds (fun s : Tree × σ => E s.1) (fun s => P s.1) (Pass.edit e) fun a s => Q a s.1 := by
  rintro ⟨t, s⟩ ht
  have het := h t ht
  simp only [Pass.edit]
  cases hrun : e t with
  | ok a u =>
    rw [hrun] at het
    exact het
  | error fault u =>
    rw [hrun] at het
    exact het

theorem tree {E P : Tree → Prop} :
    Upholds (fun s : Tree × σ => E s.1) (fun s => P s.1) Pass.tree
      fun a s => P s.1 ∧ a = s.1 :=
  fun _ hs => ⟨hs, rfl⟩

theorem note {E P : Tree → Prop} (g : σ → σ) :
    Upholds (fun s : Tree × σ => E s.1) (fun s => P s.1) (Pass.note g) fun _ s => P s.1 :=
  fun _ hs => hs

/-- A pass with a state of its own. -/
theorem withState {E P : Tree → Prop} {p : Pass (σ × τ) α} (start : τ)
    (h : Upholds (fun s => E s.1) (fun s => P s.1) p fun _ s => P s.1) :
    Upholds (fun s : Tree × σ => E s.1) (fun s => P s.1) (Pass.withState start p)
      fun _ s => P s.1 := by
  rintro ⟨t, s⟩ ht
  have hpt := h (t, s, start) ht
  simp only [Pass.withState]
  cases hrun : p (t, s, start) with
  | ok a u =>
    rw [hrun] at hpt
    exact hpt
  | error fault u =>
    rw [hrun] at hpt
    exact hpt

/-- A walk keeps what every visit keeps. -/
theorem walk {P : Tree → Prop} {visit : NodeId → Pass σ Unit}
    (h : ∀ id, Upholds (fun s => P s.1) (fun s => P s.1) (visit id) fun _ s => P s.1)
    (start : NodeId) :
    Upholds (fun s => P s.1) (fun s => P s.1) (DocTree.walk visit start) fun _ s => P s.1 := by
  have hfrom : ∀ (steps visited : Nat) (pending : List NodeId),
      Upholds (fun s => P s.1) (fun s => P s.1) (walkFrom visit steps visited pending)
        fun _ s => P s.1 := by
    intro steps
    induction steps with
    | zero => exact fun _ pending => pure pending fun s hs => hs
    | succ steps ih =>
      intro visited pending
      cases pending with
      | nil => exact pure [] fun s hs => hs
      | cons id pending =>
        apply tree.bind
        intro t
        dsimp only
        split
        · exact throw _ fun s hs => hs.1
        · apply ((h id).weaken (fun s hs => hs.1) fun _ _ hs => hs).bind
          intro _
          apply tree.bind
          intro u
          exact (ih _ _).weaken (fun s hs => hs.1) fun _ _ hs => hs
  exact (hfrom _ _ _).bind fun _ => pure () fun s hs => hs

end Upholds

end DocTree
