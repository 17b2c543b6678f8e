import DocTree.Call
import DocTree.Proofs.Upholds
set_option autoImplicit false

/-!
# Safe: edits of a well linked row

`Safe rooted fixed free t` is what edits keep.  The numbers `fixed` and `free` belong to
the row, and the row is well linked.  With `rooted` moreover the document has no parent,
and since the numbers `free` are those that may be moved, none of them is the document.
Once more nodes exist than there are numbers nothing is promised.
-/

namespace DocTree

/-- A well linked row; with `rooted`, the document stands nowhere in it. -/
structure Tree.Fit (rooted : Prop) (t : Tree) : Prop where
  linked : t.WellLinked
  root : rooted → t.parent? .root = none

/-- A fit row, as long as its numbers are distinct. -/
def Sound (rooted : Prop) (t : Tree) : Prop := t.size ≤ NodeId.bound → t.Fit rooted

/-- A fit row to which `fixed` and `free` belong, as long as its numbers are distinct. -/
def Safe (rooted : Prop) (fixed free : List NodeId) (t : Tree) : Prop :=
  t.size ≤ NodeId.bound → t.Fit rooted ∧ (∀ i ∈ fixed ++ free, i.index < t.size) ∧
    (∀ i ∈ free, rooted → i ≠ .root)

/-! ## Composed edits -/

namespace Edit

/-- `K` holds of the edits that look at one node, change its links or make one, and of all that
is put together from edits of which it holds. -/
structure Relinks (K : ∀ α : Type, Edit α → Prop) : Prop where
  look : ∀ id, K Node (look id)
  relink : ∀ id g, (∀ m : Node, (g m).payload = m.payload) → K Unit (change id g)
  create : ∀ payload, K NodeId (create payload)
  pure : ∀ {α : Type} (a : α), K α (pure a)
  bind : ∀ {α β : Type} {e : Edit α} {f : α → Edit β}, K α e → (∀ a, K β (f a)) → K β (e >>= f)

namespace Relinks

variable {K : ∀ α : Type, Edit α → Prop}

/-- Each branch of the edit is a sequence of changes. -/
theorem detach (h : Relinks K) (id : NodeId) : K Unit (detach id) := by
  apply h.bind (h.look id)
  intro m
  dsimp only
  repeat' first
    | exact h.relink _ _ fun _ => rfl
    | refine h.bind (h.relink _ _ fun _ => rfl) fun _ => ?_
    | split

theorem append (h : Relinks K) (parent child : NodeId) : K Unit (append parent child) := by
  refine h.bind (h.detach child) fun _ => h.bind (h.look parent) fun m => ?_
  refine h.bind (h.relink _ _ fun _ => rfl) fun _ => ?_
  split <;> exact h.bind (h.relink _ _ fun _ => rfl) fun _ => h.relink _ _ fun _ => rfl

theorem insertBefore (h : Relinks K) (sib id : NodeId) : K Unit (insertBefore sib id) := by
  unfold Edit.insertBefore
  split
  · exact h.pure ()
  · refine h.bind (h.detach id) fun _ => h.bind (h.look sib) fun m => ?_
    split
    · exact h.pure ()
    · refine h.bind (h.relink _ _ fun _ => rfl) fun _ =>
        h.bind (h.relink _ _ fun _ => rfl) fun _ => ?_
      split <;> exact h.relink _ _ fun _ => rfl

end Relinks

/-- `K` holds of the edits that look at, change or make one node, and of all that is put
together from edits of which it holds. -/
structure Composes (K : ∀ α : Type, Edit α → Prop) : Prop where
  look : ∀ id, K Node (look id)
  change : ∀ id g, K Unit (change id g)
  create : ∀ payload, K NodeId (create payload)
  pure : ∀ {α : Type} (a : α), K α (pure a)
  bind : ∀ {α β : Type} {e : Edit α} {f : α → Edit β}, K α e → (∀ a, K β (f a)) → K β (e >>= f)

namespace Composes

variable {K : ∀ α : Type, Edit α → Prop}

theorem relinks (h : Composes K) : Relinks K where
  look := h.look
  relink := fun id g _ => h.change id g
  create := h.create
  pure := h.pure
  bind := h.bind

theorem detach (h : Composes K) (id : NodeId) : K Unit (detach id) := h.relinks.detach id

theorem append (h : Composes K) (parent child : NodeId) : K Unit (append parent child) :=
  h.relinks.append parent child

theorem insertBefore (h : Composes K) (sib id : NodeId) : K Unit (insertBefore sib id) :=
  h.relinks.insertBefore sib id

theorem appendText (h : Composes K) (parent : NodeId) (content : String) :
    K Unit (appendText parent content) := by
  have hadd : K Unit (do Edit.append parent (← createText content)) :=
    h.bind (h.create _) fun id => h.append parent id
  refine h.bind (h.look parent) fun m => ?_
  split
  · exact hadd
  · next last _ =>
    refine h.bind (h.look last) fun k => ?_
    split
    · exact h.change _ _
    · exact hadd

end Composes

/-- The edit never leaves fewer nodes. -/
def Grows {α : Type} (e : Edit α) : Prop :=
  ∀ n, Upholds (fun t => n ≤ t.size) (fun t => n ≤ t.size) e fun _ t => n ≤ t.size

theorem composes_grows : Composes fun _ e => Grows e where
  look := by
    intro id n t ht
    unfold Edit.look
    cases t.node? id <;> exact ht
  change := by
    intro id g n t ht
    unfold Edit.change
    split
    · next heq =>
      split at heq
      · cases heq
        exact (Tree.size_modify t id g).symm ▸ ht
      · cases heq
    · next heq =>
      split at heq
      · cases heq
      · cases heq
        exact ht
  create := by
    intro payload n t ht
    exact Nat.le_trans ht ((t.size_create payload).symm ▸ Nat.le_succ _)
  pure := fun a _ => Upholds.pure a fun _ h => h
  bind := fun he hf n => (he n).bind fun a => hf a n

theorem grows_place (piece : Piece) (spot : Spot) : Grows (place piece spot) := by
  have hK := composes_grows
  have hget : ∀ f : Tree → Edit Unit, (∀ t, Grows (f t)) → Grows (do f (← get)) :=
    fun f hf n => Upholds.get.bind fun t => (hf t n).weaken (fun _ h => h.1) fun _ _ h => h
  have hlast : ∀ p, Grows (placeLast p piece) := by
    intro p
    cases piece with
    | node c => exact hK.append p c
    | text content => exact hK.appendText p content
  have hbefore : ∀ sib, Grows (placeBefore sib piece) := by
    intro sib
    cases piece with
    | node c => exact hK.insertBefore sib c
    | text content =>
      refine hget _ fun t => ?_
      split
      · exact hK.change _ _
      · exact hK.bind (hK.create _) fun id => hK.insertBefore sib id
  cases spot with
  | last p => exact hlast p
  | before sib => exact hbefore sib
  | beside element fallback =>
    refine hget _ fun t => ?_
    split
    · exact hbefore element
    · exact hlast fallback

theorem Grows.size_le_leave {α : Type} {e : Edit α} (h : Grows e) (t : Tree) :
    t.size ≤ (e.leave t).size := by
  have ht := h t.size t (Nat.le_refl _)
  unfold leave
  cases hrun : e t <;> rw [hrun] at ht <;> exact ht

end Edit

/-! ## What single edits keep -/

namespace Safe

open DocTree.Tree Edit

variable {rooted : Prop} {fixed free : List NodeId} {t u : Tree} {c p sib : NodeId}

theorem sound (h : Safe rooted fixed free t) : Sound rooted t := fun hsize => (h hsize).1

/-- Fewer numbers are safe as well. -/
theorem mono {fixed' free' : List NodeId} (h : Safe rooted fixed free t)
    (hfixed : ∀ i ∈ fixed', i ∈ fixed ++ free) (hfree : ∀ i ∈ free', i ∈ free) :
    Safe rooted fixed' free' t := by
  intro hsize
  obtain ⟨hfit, hin, hroot⟩ := h hsize
  refine ⟨hfit, fun i hi => ?_, fun i hi => hroot i (hfree i hi)⟩
  rcases List.mem_append.1 hi with hi | hi
  · exact hin i (hfixed i hi)
  · exact hin i (List.mem_append_right _ (hfree i hi))

/-- The children of a node may be moved. -/
theorem children (h : Safe rooted fixed free t) (p : NodeId) :
    Safe rooted fixed (t.children p ++ free) t := by
  intro hsize
  obtain ⟨hfit, hin, hroot⟩ := h hsize
  have hkids := hfit.linked.kids p
  refine ⟨hfit, fun i hi => ?_, fun i hi hr => ?_⟩
  · rcases List.mem_append.1 hi with hi | hi
    · exact hin i (List.mem_append_left _ hi)
    · rcases List.mem_append.1 hi with hi | hi
      · exact hkids.index_lt hi
      · exact hin i (List.mem_append_right _ hi)
  · rcases List.mem_append.1 hi with hi | hi
    · rintro rfl
      have := (hkids.parent? hi).symm.trans (hfit.root hr)
      cases this
    · exact hroot i hi hr

end Safe

namespace Tree.Fit

variable {rooted : Prop} {t u : Tree} {c : NodeId}

theorem of_sameLinks (h : t.Fit rooted) (hu : t.SameLinks u) : u.Fit rooted where
  linked := h.linked.of_sameLinks hu
  root := fun hr => (hu.parent .root).trans (h.root hr)

theorem takenOut (h : t.Fit rooted) (hu : t.TakenOut c u) : u.Fit rooted where
  linked := h.linked.takenOut hu
  root := by
    intro hr
    by_cases hc : NodeId.root = c
    · exact hc ▸ hu.loose.parent
    · exact (hu.parent _ hc).trans (h.root hr)

theorem shifted (h : t.Fit rooted) (hu : t.Shifted c u) (hc : rooted → c ≠ .root) :
    u.Fit rooted where
  linked := h.linked.shifted hu
  root := fun hr => (hu.parent (Ne.symm (hc hr))).trans (h.root hr)

end Tree.Fit

namespace Edit

open DocTree.Tree

variable {rooted : Prop} {fixed free : List NodeId} {c p sib : NodeId} {α : Type}

/-- An edit keeps safety if it succeeds in well linked rows and does not shrink any. -/
theorem safe_of_fit {e : Edit α} {Q : α → Tree → Prop} (hgrows : Grows e)
    (hfit : ∀ t, t.size ≤ NodeId.bound → Safe rooted fixed free t →
      ∃ a u, e t = .ok a u ∧ Q a u)
    (hfull : ∀ a u, NodeId.bound < u.size → Q a u) :
    Upholds (Sound rooted) (Safe rooted fixed free) e Q := by
  intro t ht
  by_cases hsize : t.size ≤ NodeId.bound
  · obtain ⟨a, u, hu, hq⟩ := hfit t hsize ht
    rw [hu]
    exact hq
  · have hbig := hgrows (NodeId.bound + 1) t (Nat.not_le.1 hsize)
    cases hrun : e t with
    | ok a u =>
      rw [hrun] at hbig
      exact hfull a u hbig
    | error fault u =>
      rw [hrun] at hbig
      exact fun hle => absurd hbig (Nat.not_le.2 (Nat.lt_succ_of_le hle))

theorem safe_look (id : NodeId) :
    Upholds (Sound rooted) (Safe rooted fixed free) (look id)
      fun _ => Safe rooted fixed free := by
  intro t ht
  unfold look
  cases t.node? id with
  | none => exact ht.sound
  | some n => exact ht

theorem safe_detach (hc : c ∈ fixed ++ free) :
    Upholds (Sound rooted) (Safe rooted fixed free) (detach c)
      fun _ => Safe rooted fixed free := by
  refine safe_of_fit (composes_grows.detach c) (fun t hsize ht => ?_)
    fun _ u hbig hle => absurd hbig (Nat.not_lt.2 hle)
  obtain ⟨hfit, hin, hroot⟩ := ht hsize
  obtain ⟨u, hu, hout⟩ := hfit.linked.exists_takenOut (hin c hc)
  refine ⟨(), u, hu, fun _ => ⟨hfit.takenOut hout, ?_, hroot⟩⟩
  rw [hout.size]
  exact hin

/-- An edit that moves one node, which may be moved, keeps safety. -/
theorem safe_of_shifted {e : Edit Unit} (hgrows : Grows e) (hc : c ∈ free)
    (hshift : ∀ t : Tree, t.WellLinked → (∀ i ∈ fixed ++ free, i.index < t.size) →
      ∃ u, e t = .ok () u ∧ t.Shifted c u) :
    Upholds (Sound rooted) (Safe rooted fixed free) e fun _ => Safe rooted fixed free := by
  refine safe_of_fit hgrows (fun t hsize ht => ?_)
    fun _ u hbig hle => absurd hbig (Nat.not_lt.2 hle)
  obtain ⟨hfit, hin, hroot⟩ := ht hsize
  obtain ⟨u, hu, hshifted⟩ := hshift t hfit.linked hin
  refine ⟨(), u, hu, fun _ => ⟨hfit.shifted hshifted (hroot c hc), ?_, hroot⟩⟩
  rw [hshifted.size]
  exact hin

theorem safe_append (hp : p ∈ fixed ++ free) (hc : c ∈ free) :
    Upholds (Sound rooted) (Safe rooted fixed free) (append p c)
      fun _ => Safe rooted fixed free :=
  safe_of_shifted (composes_grows.append p c) hc fun _ h hin =>
    h.exists_append_shifted (hin p hp) (hin c (List.mem_append_right _ hc))

theorem safe_insertBefore (hsib : sib ∈ fixed ++ free) (hc : c ∈ free) :
    Upholds (Sound rooted) (Safe rooted fixed free) (insertBefore sib c)
      fun _ => Safe rooted fixed free :=
  safe_of_shifted (composes_grows.insertBefore sib c) hc fun _ h hin =>
    h.exists_insertBefore_shifted (hin sib hsib) (hin c (List.mem_append_right _ hc))

/-- A node that is made may be moved. -/
theorem safe_create (payload : Payload) :
    Upholds (Sound rooted) (Safe rooted fixed free) (create payload)
      fun id => Safe rooted fixed (id :: free) := by
  intro t ht hle
  have hsize : t.size < NodeId.bound := by
    have : t.size + 1 ≤ NodeId.bound := by rwa [size_create] at hle
    omega
  obtain ⟨hfit, hin, hroot⟩ := ht (Nat.le_of_lt hsize)
  have hid := index_create hsize payload
  refine ⟨hfit.of_sameLinks (.create t payload), fun i hi => ?_, fun i hi hr => ?_⟩
  · rw [size_create]
    by_cases hnew : i = (t.create payload).1
    · rw [hnew, hid]
      exact Nat.lt_succ_self _
    · exact Nat.lt_succ_of_lt (hin i (by grind))
  · rcases List.mem_cons.1 hi with rfl | hi
    · intro hroot0
      have := t.size_pos
      rw [hroot0] at hid
      rw [← hid, NodeId.index_root] at this
      exact absurd this (Nat.lt_irrefl 0)
    · exact hroot i hi hr

/-! ## What longer edits keep -/

theorem safe_extendText (id : NodeId) (old new : String) :
    Upholds (Sound rooted) (Safe rooted fixed free) (extendText id old new)
      fun _ => Safe rooted fixed free := by
  intro t ht
  unfold extendText change
  split
  · next heq =>
    split at heq
    · cases heq
      intro hle
      rw [size_modify] at hle ⊢
      obtain ⟨hfit, hin, hroot⟩ := ht hle
      exact ⟨hfit.of_sameLinks (.modify t id fun _ => .text (old ++ new)), hin, hroot⟩
    · cases heq
  · next heq =>
    split at heq
    · cases heq
    · cases heq
      exact ht.sound

theorem safe_appendText (hp : p ∈ fixed ++ free) (content : String) :
    Upholds (Sound rooted) (Safe rooted fixed free) (appendText p content)
      fun _ => Safe rooted fixed free := by
  have haddition : Upholds (Sound rooted) (Safe rooted fixed free)
      (do append p (← createText content)) fun _ => Safe rooted fixed free := by
    apply (safe_create (.text content)).bind
    intro id
    refine (safe_append ?_ List.mem_cons_self).weaken (fun _ h => h) fun _ _ h => ?_
    · exact (List.mem_append.1 hp).elim (List.mem_append_left _)
        fun h => List.mem_append_right _ (List.mem_cons_of_mem _ h)
    · exact h.mono (fun i hi => List.mem_append_left _ hi)
        fun i hi => List.mem_cons_of_mem _ hi
  apply (safe_look p).bind
  intro m
  split
  · exact haddition
  · apply (safe_look _).bind
    intro k
    split
    · exact safe_extendText _ _ content
    · exact haddition

theorem safe_placeLast (hp : p ∈ fixed ++ free) (piece : Piece)
    (hpiece : ∀ id, piece = .node id → id ∈ free) :
    Upholds (Sound rooted) (Safe rooted fixed free) (placeLast p piece)
      fun _ => Safe rooted fixed free := by
  cases piece with
  | node id => exact safe_append hp (hpiece id rfl)
  | text content => exact safe_appendText hp content

theorem safe_placeBefore (hsib : sib ∈ fixed ++ free) (piece : Piece)
    (hpiece : ∀ id, piece = .node id → id ∈ free) :
    Upholds (Sound rooted) (Safe rooted fixed free) (placeBefore sib piece)
      fun _ => Safe rooted fixed free := by
  cases piece with
  | node id => exact safe_insertBefore hsib (hpiece id rfl)
  | text content =>
    apply Upholds.get.bind
    intro t
    split
    · exact (safe_extendText _ _ content).weaken (fun _ h => h.1) fun _ _ h => h
    · refine ((safe_create (.text content)).weaken (fun _ h => h.1) fun _ _ h => h).bind
        fun id => ?_
      refine (safe_insertBefore ?_ List.mem_cons_self).weaken (fun _ h => h) fun _ _ h => ?_
      · exact (List.mem_append.1 hsib).elim (List.mem_append_left _)
          fun h => List.mem_append_right _ (List.mem_cons_of_mem _ h)
      · exact h.mono (fun i hi => List.mem_append_left _ hi)
          fun i hi => List.mem_cons_of_mem _ hi

theorem safe_place (piece : Piece) (spot : Spot) (hpiece : ∀ i ∈ piece.ids, i ∈ free)
    (hspot : ∀ i ∈ spot.ids, i ∈ fixed ++ free) :
    Upholds (Sound rooted) (Safe rooted fixed free) (place piece spot)
      fun _ => Safe rooted fixed free := by
  have hnode : ∀ id, piece = .node id → id ∈ free := by
    rintro id rfl
    exact hpiece id List.mem_cons_self
  cases spot with
  | last p => exact safe_placeLast (hspot p List.mem_cons_self) piece hnode
  | before sib => exact safe_placeBefore (hspot sib List.mem_cons_self) piece hnode
  | beside element fallback =>
    apply Upholds.get.bind
    intro t
    split
    · exact (safe_placeBefore (hspot element List.mem_cons_self) piece hnode).weaken
        (fun _ h => h.1) fun _ _ h => h
    · exact (safe_placeLast (hspot fallback (List.mem_cons_of_mem _ List.mem_cons_self))
        piece hnode).weaken (fun _ h => h.1) fun _ _ h => h

theorem safe_appendAll (hp : p ∈ fixed ++ free) (ids : List NodeId) (hids : ∀ i ∈ ids, i ∈ free) :
    Upholds (Sound rooted) (Safe rooted fixed free) (appendAll p ids)
      fun _ => Safe rooted fixed free := by
  induction ids with
  | nil => exact Upholds.pure () fun _ h => h
  | cons id ids ih =>
    apply (safe_append hp (hids id List.mem_cons_self)).bind
    intro _
    exact ih fun i hi => hids i (List.mem_cons_of_mem _ hi)

theorem safe_moveChildren (id : NodeId) (hp : p ∈ fixed ++ free) :
    Upholds (Sound rooted) (Safe rooted fixed free) (moveChildren id p)
      fun _ => Safe rooted fixed free := by
  apply Upholds.get.bind
  intro t
  have hp' : p ∈ fixed ++ (t.children id ++ free) := by
    rw [List.mem_append] at hp ⊢
    exact hp.imp_right (List.mem_append_right _)
  refine (safe_appendAll hp' (t.children id) fun i hi => List.mem_append_left free hi).weaken
    ?_ fun _ _ h => ?_
  · rintro s ⟨hs, rfl⟩
    exact hs.children id
  · exact h.mono (fun i hi => List.mem_append_left _ hi)
      fun i hi => List.mem_append_right _ hi

theorem safe_appendDoctype (name publicId systemId : String) :
    Upholds (Sound rooted) (Safe rooted fixed free) (appendDoctype name publicId systemId)
      fun _ => Safe rooted fixed free := by
  apply (safe_create (.doctype name publicId systemId)).bind
  intro id
  refine (@safe_append rooted (.root :: fixed) (id :: free) id .root ?_ ?_).weaken
    ?_ fun _ _ h => ?_
  · exact List.mem_cons_self
  · exact List.mem_cons_self
  · intro t ht hsize
    obtain ⟨hfit, hin, hroot⟩ := ht hsize
    refine ⟨hfit, fun i hi => ?_, hroot⟩
    rcases List.mem_cons.1 hi with rfl | hi
    · exact t.size_pos
    · exact hin i hi
  · exact h.mono (fun i hi => by simp [hi]) fun i hi => List.mem_cons_of_mem _ hi

end Edit

theorem Safe.fillAttrs {rooted : Prop} {fixed free : List NodeId} {t : Tree}
    (h : Safe rooted fixed free t) (id : NodeId) (more : List Attr) :
    Safe rooted fixed free (t.fillAttrs id more) := by
  intro hle
  rw [Tree.fillAttrs, Tree.size_modify] at hle ⊢
  obtain ⟨hfit, hin, hroot⟩ := h hle
  exact ⟨hfit.of_sameLinks (.modify t id (Payload.fillAttrs more)), hin, hroot⟩

/-! ## What regrouping keeps -/

section Regroup

variable {rooted : Prop} {fixed free : List NodeId}

theorem safe_itemFor {child : NodeId} {item : Option NodeId} (hchild : child ∈ free)
    (hitem : ∀ i, item = some i → i ∈ free) :
    Upholds (fun s => Sound rooted s.1) (fun s => Safe rooted fixed free s.1)
      (itemFor child item) fun id s => Safe rooted fixed (id :: free) s.1 := by
  cases item with
  | some i =>
    apply Upholds.pure i
    intro s hs hsize
    obtain ⟨hfit, hin, hroot⟩ := hs hsize
    have hi := hitem i rfl
    exact ⟨hfit, by grind, by grind⟩
  | none =>
    apply (Edit.safe_create _).edit.bind
    intro id
    refine (Edit.safe_insertBefore (List.mem_append_right _ (List.mem_cons_of_mem _ hchild))
      List.mem_cons_self).edit.bind fun _ => ?_
    exact (Upholds.note _).bind fun _ => Upholds.pure id fun _ h => h

theorem safe_gatherStrays (list : NodeId) (children : List NodeId) :
    ∀ (free : List NodeId) (item : Option NodeId), (∀ c ∈ children, c ∈ free) →
      (∀ i, item = some i → i ∈ free) →
      Upholds (fun s => Sound rooted s.1) (fun s => Safe rooted fixed free s.1)
        (gatherStrays list item children) fun _ s => Safe rooted fixed free s.1 := by
  induction children with
  | nil => exact fun free item _ _ => Upholds.pure () fun _ h => h
  | cons child children ih =>
    intro free item hchildren hitem
    have hchild : child ∈ free := hchildren child List.mem_cons_self
    have hrest : ∀ c ∈ children, c ∈ free := fun c hc =>
      hchildren c (List.mem_cons_of_mem _ hc)
    apply Upholds.tree.bind
    intro t
    split
    · refine (ih free (some child) hrest ?_).weaken (fun _ h => h.1) fun _ _ h => h
      intro i hi
      exact Option.some.inj hi ▸ hchild
    · refine ((safe_itemFor hchild hitem).weaken (fun _ h => h.1) fun _ _ h => h).bind
        fun id => ?_
      refine (Edit.safe_append (List.mem_append_right _ List.mem_cons_self)
        (List.mem_cons_of_mem _ hchild)).edit.bind fun _ => ?_
      apply (Upholds.note _).bind
      intro _
      refine (ih (id :: free) (some id) (fun c hc => List.mem_cons_of_mem _ (hrest c hc))
        ?_).weaken (fun _ h => h) fun _ _ h => ?_
      · intro i hi
        exact Option.some.inj hi ▸ List.mem_cons_self
      · exact h.mono (fun i hi => List.mem_append_left _ hi)
          fun i hi => List.mem_cons_of_mem _ hi

theorem sound_regroupList (id : NodeId) :
    Upholds (fun s => Sound rooted s.1) (fun s => Sound rooted s.1) (regroupList id)
      fun _ s => Sound rooted s.1 := by
  apply Upholds.tree.bind
  intro t
  split
  · have hnote := Upholds.note (E := Sound rooted) (P := Sound rooted)
      fun ((log, c) : Log × Tally) => (log, { c with lists := c.lists + 1 })
    apply (hnote.weaken (fun _ h => h.1) fun _ _ h => h).bind
    intro _
    apply Upholds.tree.bind
    intro u
    refine (@safe_gatherStrays rooted [] id (u.children id) (u.children id) none
      (fun _ h => h) (fun _ h => by cases h)).weaken ?_ fun _ _ h => h.sound
    rintro s ⟨hs, rfl⟩
    have hsafe : Safe rooted [] [] s.1 := fun hsize => ⟨hs hsize, by simp, by simp⟩
    exact (hsafe.children id).mono (by simp) fun i hi => List.mem_append_left _ hi
  · exact Upholds.pure () fun _ h => h.1

theorem sound_regroupLists :
    Upholds (fun s => Sound rooted s.1) (fun s => Sound rooted s.1) regroupLists
      fun _ s => Sound rooted s.1 := by
  apply Upholds.tree.bind
  intro t
  split
  · exact Upholds.throw _ fun s hs => hs.1
  · have hwalk := Upholds.withState (σ := Log) Tally.zero
      (Upholds.walk (@sound_regroupList rooted) .root)
    exact (hwalk.weaken (fun _ h => h.1) fun _ _ h => h).bind fun _ => Upholds.note _

end Regroup

end DocTree
