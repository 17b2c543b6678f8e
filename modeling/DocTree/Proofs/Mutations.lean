import DocTree.Proofs.Outside
set_option autoImplicit false

/-!
# Mutations: what single changes do to parents

A tree is changed step by step: nodes are made, moved and taken out, and characters are put
behind others.  Such a change is stopped by a number outside the row only
(`Mutation.stopsOutside_edit`), and in a well linked row it gives no node another parent but the
one that it takes out of its place (`Mutation.reparents_edit`).
-/

namespace DocTree

open DocTree.Tree

/-! ## Changes and series of changes -/

/-- One change of a tree: a node of any payload is made, moved or taken out, or characters are
put behind all that is in a node. -/
inductive Mutation where
  | create (payload : Payload)
  | append (parent child : NodeId)
  | insertBefore (sibling id : NodeId)
  | detach (id : NodeId)
  | appendText (parent : NodeId) (content : String)
  deriving Repr

namespace Mutation

def edit : Mutation → Edit Unit
  | create payload => do let _ ← Edit.create payload
  | append parent child => Edit.append parent child
  | insertBefore sibling id => Edit.insertBefore sibling id
  | detach id => Edit.detach id
  | appendText parent content => Edit.appendText parent content

/-- The nodes of the row that a change takes out of their place. -/
def taken : Mutation → List NodeId
  | append _ child => [child]
  | insertBefore _ id => [id]
  | detach id => [id]
  | _ => []

/-- Changes made one after another, up to the first that is stopped. -/
def run : List Mutation → Edit Unit
  | [] => pure ()
  | m :: ms => do
    m.edit
    run ms

/-- `P` holds after each of the changes that come to their end. -/
def Keeps (P : Tree → Prop) : List Mutation → Tree → Prop
  | [], _ => True
  | m :: ms, t => ∀ u, m.edit t = .ok () u → P u ∧ Keeps P ms u

end Mutation

/-! ## Faults of the edits -/

/-- Nothing but a number outside the row stops the edit. -/
def Edit.StopsOutside {α : Type} (e : Edit α) : Prop :=
  ∀ t fault u, e t = .error fault u → fault = .outside

theorem Edit.composes_stopsOutside : Edit.Composes fun _ e => Edit.StopsOutside e where
  look := by
    intro id t fault u hrun
    unfold look at hrun
    split at hrun <;> cases hrun
    rfl
  change := by
    intro id g t fault u hrun
    unfold change at hrun
    split at hrun <;> cases hrun
    rfl
  create := by
    intro payload t fault u hrun
    cases hrun
  pure := by
    intro α a t fault u hrun
    cases hrun
  bind := by
    intro α β e f he hf t fault u hrun
    simp only [bind_apply] at hrun
    cases hstep : e t with
    | ok a s =>
      rw [hstep] at hrun
      exact hf a s fault u hrun
    | error fault' s =>
      rw [hstep] at hrun
      cases hrun
      exact he t _ _ hstep

namespace Mutation

variable {t u : Tree} {m : Mutation} {ms : List Mutation}

theorem stopsOutside_edit (m : Mutation) : m.edit.StopsOutside := by
  have hK := Edit.composes_stopsOutside
  cases m with
  | create payload => exact hK.bind (hK.create payload) fun _ => hK.pure ()
  | append parent child => exact hK.append parent child
  | insertBefore sibling id => exact hK.insertBefore sibling id
  | detach id => exact hK.detach id
  | appendText parent content => exact hK.appendText parent content

theorem stopsOutside_run (ms : List Mutation) : (run ms).StopsOutside := by
  induction ms with
  | nil => exact Edit.composes_stopsOutside.pure ()
  | cons m ms ih => exact Edit.composes_stopsOutside.bind m.stopsOutside_edit fun _ => ih

theorem run_cons_eq_ok_iff :
    run (m :: ms) t = .ok () u ↔ ∃ s, m.edit t = .ok () s ∧ run ms s = .ok () u := by
  simp only [run, bind_apply]
  cases m.edit t with
  | ok _ s => simp
  | error fault s => simp

theorem Keeps.imp {P Q : Tree → Prop} (hkeeps : Keeps P ms t) (h : ∀ u, P u → Q u) :
    Keeps Q ms t := by
  induction ms generalizing t with
  | nil => trivial
  | cons m ms ih =>
    intro u hu
    exact ⟨h u (hkeeps u hu).1, ih (hkeeps u hu).2⟩

/-- What holds after each change holds after all of them. -/
theorem Keeps.run {P : Tree → Prop} (hkeeps : Keeps P ms t) (ht : P t)
    (hrun : run ms t = .ok () u) : P u := by
  induction ms generalizing t with
  | nil =>
    cases hrun
    exact ht
  | cons m ms ih =>
    obtain ⟨s, hs, hrest⟩ := run_cons_eq_ok_iff.1 hrun
    obtain ⟨hP, hkeeps⟩ := hkeeps s hs
    exact ih hkeeps hP hrest

end Mutation

/-! ## Parents -/

/-- `u` is well linked, and of the nodes of `t` at most those of `nodes` have got another
parent in it. -/
structure Tree.Reparents (t : Tree) (nodes : List NodeId) (u : Tree) : Prop where
  linked : u.WellLinked
  size_le : t.size ≤ u.size
  parent : ∀ x, x.index < t.size → x ∉ nodes → u.parent? x = t.parent? x

namespace Tree.Reparents

variable {t s u : Tree} {c p sib : NodeId} {nodes nodes' : List NodeId}

theorem refl (h : t.WellLinked) (nodes : List NodeId) : t.Reparents nodes t :=
  ⟨h, Nat.le_refl _, fun _ _ _ => rfl⟩

theorem trans (h : t.Reparents nodes s) (h' : s.Reparents nodes' u) :
    t.Reparents (nodes ++ nodes') u where
  linked := h'.linked
  size_le := Nat.le_trans h.size_le h'.size_le
  parent := by
    intro x hx hout
    obtain ⟨hout, hout'⟩ := not_or.1 (mt List.mem_append.2 hout)
    rw [h'.parent x (Nat.lt_of_lt_of_le hx h.size_le) hout', h.parent x hx hout]

theorem of_sameLinks (h : t.WellLinked) (hu : t.SameLinks u) (hsize : t.size ≤ u.size)
    (nodes : List NodeId) : t.Reparents nodes u :=
  ⟨h.of_sameLinks hu, hsize, fun x _ _ => hu.parent x⟩

theorem of_shifted (h : t.WellLinked) (hu : t.Shifted c u) : t.Reparents [c] u where
  linked := h.shifted hu
  size_le := Nat.le_of_eq hu.size.symm
  parent := fun _ _ hx => hu.parent fun hxc => hx (List.mem_singleton.2 hxc)

theorem of_detach (h : t.WellLinked) (hrun : Edit.detach c t = .ok () u) : t.Reparents [c] u :=
  of_shifted h ((h.detach_outcome c).ended_of_eq_ok hrun)

theorem of_append (h : t.WellLinked) (hrun : Edit.append p c t = .ok () u) : t.Reparents [c] u :=
  of_shifted h ((h.append_outcome p c).ended_of_eq_ok hrun)

theorem of_insertBefore (h : t.WellLinked) (hrun : Edit.insertBefore sib c t = .ok () u) :
    t.Reparents [c] u :=
  of_shifted h ((h.insertBefore_outcome sib c).ended_of_eq_ok hrun)

theorem of_create (h : t.WellLinked) (payload : Payload) (nodes : List NodeId) :
    t.Reparents nodes (t.create payload).2 :=
  of_sameLinks h (.create t payload) (t.size_create payload ▸ Nat.le_succ _) nodes

/-- A text that is made is no node of `t`, so no node of `t` gets another parent. -/
theorem of_appendText {content : String} (h : t.WellLinked)
    (hrun : Edit.appendText p content t = .ok () u) (hsize : u.size ≤ NodeId.bound) :
    t.Reparents [] u := by
  rcases Nat.lt_or_ge p.index t.size with hp | hp
  · rcases Edit.appendText_cases hp (fun _ => h.index_lt_of_lastChild?) content with
      ⟨last, old, htext, heq⟩ | heq
    · obtain ⟨payload, hpayload, -⟩ := Option.bind_eq_some_iff.1 htext
      cases (heq.trans (Edit.change_eq_ok (index_lt_of_payload? hpayload) _)).symm.trans hrun
      exact of_sameLinks h (.modify t last fun _ => .text (old ++ content))
        (Nat.le_of_eq (size_modify ..).symm) []
    · have hmade := of_create h (.text content) []
      have hadded := of_append hmade.linked (heq.symm.trans hrun)
      have hroom : t.size < NodeId.bound := by
        have hle := hadded.size_le
        rw [size_create] at hle
        omega
      refine ⟨hadded.linked, Nat.le_trans hmade.size_le hadded.size_le, fun x hx _ => ?_⟩
      have hnew : x ≠ (t.create (.text content)).1 := by
        rintro rfl
        rw [index_create hroom] at hx
        exact Nat.lt_irrefl _ hx
      rw [hadded.parent x (Nat.lt_of_lt_of_le hx hmade.size_le) (by simpa using hnew),
        hmade.parent x hx List.not_mem_nil]
  · cases (Edit.appendText_eq_error hp content).symm.trans hrun

end Tree.Reparents

namespace Mutation

variable {t u : Tree} {m : Mutation} {ms : List Mutation}

/-- A change gives at most the nodes that it takes another parent. -/
theorem reparents_edit (h : t.WellLinked) (hrun : m.edit t = .ok () u)
    (hsize : u.size ≤ NodeId.bound) : t.Reparents m.taken u := by
  cases m with
  | create payload =>
    cases hrun
    exact .of_create h payload _
  | append parent child => exact .of_append h hrun
  | insertBefore sibling id => exact .of_insertBefore h hrun
  | detach id => exact .of_detach h hrun
  | appendText parent content => exact .of_appendText h hrun hsize

theorem reparents_run (h : t.WellLinked) (hkeeps : Keeps (fun u => u.size ≤ NodeId.bound) ms t)
    (hrun : run ms t = .ok () u) : t.Reparents (ms.flatMap taken) u := by
  induction ms generalizing t with
  | nil =>
    cases hrun
    exact .refl h _
  | cons m ms ih =>
    obtain ⟨s, hs, hrest⟩ := run_cons_eq_ok_iff.1 hrun
    obtain ⟨hsize, hkeeps⟩ := hkeeps s hs
    have hfirst := reparents_edit h hs hsize
    exact hfirst.trans (ih hfirst.linked hkeeps hrest)

end Mutation

end DocTree
