import DocTree.Proofs.Findings
import DocTree.Proofs.Safe
set_option autoImplicit false

/-!
# Runs: rows reached by calls

Whatever calls are made on a new tree, its row stays well linked (`sound_of_runs`), so
that the one defect it can get is a document that stands below itself.
-/

namespace DocTree

variable {rooted : Prop}

/-! ## Runs that can be computed -/

/-- The calls, made one after another, name only nodes that exist by then. -/
def Call.AllNameExisting : List Call → Tree × Log → Prop
  | [], _ => True
  | c :: cs, s => (∀ i ∈ c.ids, i.index < s.1.size) ∧ AllNameExisting cs (c.after s)

instance : (calls : List Call) → (s : Tree × Log) → Decidable (Call.AllNameExisting calls s)
  | [], _ => .isTrue trivial
  | c :: cs, s =>
    have : Decidable (Call.AllNameExisting cs (c.after s)) :=
      instDecidableAllNameExisting cs (c.after s)
    inferInstanceAs (Decidable (_ ∧ Call.AllNameExisting cs (c.after s)))

/-- A run leaves what its calls leave one after another. -/
theorem runs_iff {calls : List Call} {s u : Tree × Log} :
    Runs calls s u ↔
      Call.AllNameExisting calls s ∧ calls.foldl (fun s c => c.after s) s = u := by
  constructor
  · intro h
    induction h with
    | nil s => exact ⟨trivial, rfl⟩
    | cons hids _ ih => exact ⟨⟨hids, ih.1⟩, ih.2⟩
  · rintro ⟨hcalls, rfl⟩
    induction calls generalizing s with
    | nil => exact .nil s
    | cons c calls ih => exact .cons hcalls.1 (ih hcalls.2)

/-! ## What calls keep -/

/-- A call keeps well linked rows well linked. -/
theorem Call.sound_pass (c : Call) (hmoved : rooted → .root ∉ c.moved) :
    Upholds (fun s => Sound rooted s.1)
      (fun s => Sound rooted s.1 ∧ ∀ i ∈ c.ids, i.index < s.1.size) c.pass
      fun _ s => Sound rooted s.1 := by
  -- all numbers that are moved are among those that are named
  have hsafe : ∀ s : Tree × Log,
      (Sound rooted s.1 ∧ ∀ i ∈ c.ids, i.index < s.1.size) →
      Safe rooted c.ids c.moved s.1 := by
    rintro s ⟨hs, hids⟩ hsize
    refine ⟨hs hsize, fun i hi => ?_, fun i hi hr hroot => hmoved hr (hroot ▸ hi)⟩
    rcases List.mem_append.1 hi with hi | hi
    · exact hids i hi
    · apply hids i
      cases c <;> simp_all [Call.ids, Call.moved]
  have hedit : ∀ {e : Edit Unit},
      Upholds (Sound rooted) (Safe rooted c.ids c.moved) e (fun _ => Safe rooted c.ids c.moved) →
      Upholds (fun s : Tree × Log => Sound rooted s.1)
        (fun s => Sound rooted s.1 ∧ ∀ i ∈ c.ids, i.index < s.1.size) (Pass.edit e)
        fun _ s => Sound rooted s.1 :=
    fun he => he.edit.weaken hsafe fun _ _ h => h.sound
  have hmake : ∀ payload : Payload,
      Upholds (fun s : Tree × Log => Sound rooted s.1)
        (fun s => Sound rooted s.1 ∧ ∀ i ∈ c.ids, i.index < s.1.size)
        (do let _ ← Pass.edit (Edit.create payload)) fun _ s => Sound rooted s.1 :=
    fun payload => (((Edit.safe_create payload).edit).weaken hsafe fun _ _ h => h).bind
      fun _ => Upholds.pure () fun _ h => h.sound
  cases c with
  | createElement name attrs => exact hmake _
  | createHtml tag => exact hmake _
  | createText content => exact hmake _
  | createComment content => exact hmake _
  | createDoctype name publicId systemId => exact hmake _
  | append parent child =>
    exact hedit (Edit.safe_append (by simp [Call.ids]) (by simp [Call.moved]))
  | insertBefore sibling id =>
    exact hedit (Edit.safe_insertBefore (by simp [Call.ids]) (by simp [Call.moved]))
  | detach id => exact hedit (Edit.safe_detach (by simp [Call.ids]))
  | appendText parent content => exact hedit (Edit.safe_appendText (by simp [Call.ids]) content)
  | place piece spot =>
    exact hedit (Edit.safe_place piece spot (fun i hi => hi)
      fun i hi => by simp [Call.ids, hi])
  | appendDoctype name publicId systemId =>
    exact hedit (Edit.safe_appendDoctype name publicId systemId)
  | fillAttrs id more => exact fun s hs => ((hsafe s hs).fillAttrs id more).sound
  | moveChildren id parent =>
    exact hedit (Edit.safe_moveChildren id (by simp [Call.ids]))
  | regroupLists => exact sound_regroupLists.weaken (fun _ h => h.1) fun _ _ h => h

theorem Call.sound_after (c : Call) (hmoved : rooted → .root ∉ c.moved) {s : Tree × Log}
    (hs : Sound rooted s.1) (hids : ∀ i ∈ c.ids, i.index < s.1.size) :
    Sound rooted (c.after s).1 := by
  have hpass := c.sound_pass hmoved s ⟨hs, hids⟩
  unfold Call.after
  cases hrun : c.pass s <;> rw [hrun] at hpass <;> exact hpass

/-- Runs keep well linked rows well linked. -/
theorem sound_of_runs {calls : List Call} {s u : Tree × Log} (hrun : Runs calls s u)
    (hmoved : rooted → ∀ c ∈ calls, .root ∉ c.moved) (hs : Sound rooted s.1) :
    Sound rooted u.1 := by
  induction hrun with
  | nil => exact hs
  | @cons c cs s u hids _ ih =>
    apply ih (fun hr d hd => hmoved hr d (List.mem_cons_of_mem _ hd))
    exact c.sound_after (fun hr => hmoved hr c List.mem_cons_self) hs hids

theorem sound_new : Sound rooted Tree.new := fun _ => ⟨.new, fun _ => by decide⟩

/-- Every row that calls with existing numbers lead to is well linked. -/
theorem wellLinked_of_runs {calls : List Call} {log : Log} {s : Tree × Log}
    (hrun : Runs calls (Tree.new, log) s) (hsize : s.1.size ≤ NodeId.bound) : s.1.WellLinked :=
  (@sound_of_runs False calls _ s hrun (fun h => h.elim) sound_new hsize).linked

/-- After any calls with existing numbers, whatever they move where, the examination of
the links finds nothing, or that the document stands below itself; the latter exactly if
it does, and never if no call moved the document. -/
theorem defect?_of_runs (calls : List Call) (log : Log) (s : Tree × Log)
    (hrun : Runs calls (Tree.new, log) s) (hsize : s.1.size ≤ NodeId.bound) :
    (s.1.defect? = none ∨ s.1.defect? = some (.repeated .root)) ∧
    (s.1.defect? = some (.repeated .root) ↔ s.1.Below .root .root) ∧
    ((∀ c ∈ calls, .root ∉ c.moved) → s.1.defect? = none) := by
  have hlinked : s.1.WellLinked :=
    (@sound_of_runs False calls _ s hrun (fun h => h.elim) sound_new hsize).linked
  have hcases := hlinked.defect?_eq_none_or_repeated
  refine ⟨hcases.imp_right And.left, ⟨fun h => ?_, fun h => ?_⟩, fun hmoved => ?_⟩
  · rcases hcases with hnone | ⟨-, hbelow⟩
    · rw [hnone] at h
      cases h
    · exact hbelow
  · rcases hcases with hnone | ⟨hrep, -⟩
    · exact absurd h (Tree.not_below_root_of_defect?_eq_none hnone)
    · exact hrep
  · have hfit := @sound_of_runs True calls _ s hrun (fun _ => hmoved) sound_new hsize
    rcases hcases with hnone | ⟨-, hbelow⟩
    · exact hnone
    · -- a document below itself has a parent
      exfalso
      have hparent : ∀ y, s.1.Below .root y → ∃ p, s.1.parent? y = some p := by
        intro y hy
        cases hy with
        | single hc => exact ⟨_, hlinked.mem_children_iff.1 hc⟩
        | tail _ hc => exact ⟨_, hlinked.mem_children_iff.1 hc⟩
      obtain ⟨p, hp⟩ := hparent .root hbelow
      rw [hfit.root trivial] at hp
      cases hp

/-- The document is put into an element that stands below it. -/
theorem defect?_of_runs_circular :
    ∃ s, Runs [.createHtml "div", .append .root (.ofNat 1), .append (.ofNat 1) .root]
        (Tree.new, #[]) s ∧ s.1.defect? = some (.repeated .root) ∧ s.1.Below .root .root := by
  let calls : List Call := [.createHtml "div", .append .root (.ofNat 1), .append (.ofNat 1) .root]
  have hrun : Runs calls (Tree.new, #[]) (calls.foldl (fun s c => c.after s) (Tree.new, #[])) :=
    .cons (by decide) (.cons (by decide) (.cons (by decide) (.nil _)))
  have hdefect : (calls.foldl (fun s c => c.after s) (Tree.new, #[])).1.defect? =
      some (.repeated .root) := by decide +kernel
  have hcases := defect?_of_runs calls #[] _ hrun (by decide +kernel)
  exact ⟨_, hrun, hdefect, hcases.2.1.1 hdefect⟩

end DocTree
