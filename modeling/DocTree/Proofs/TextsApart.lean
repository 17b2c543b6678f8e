import DocTree.Proofs.TextPlacement
import Mathlib.Data.List.Chain
set_option autoImplicit false

/-!
# TextsApart: no two neighbouring children are texts

A reader of markup makes nodes, puts those that it has made into the tree, and puts characters
there.  It never puts a text node anywhere, and never anything beside one (`Call.Dictated`).
Characters join the text before their place, and there is no text behind it, so that in all that
it leaves behind no two neighbouring children are texts (`textsApart_of_dictated`).
-/

namespace DocTree

open DocTree.Tree

/-- Of two neighbouring children of a node at most one is a text. -/
def Tree.TextsApart (t : Tree) : Prop :=
  ∀ p, (t.children p).IsChain fun a b => ¬ (t.isText a = true ∧ t.isText b = true)

/-! ## What a reader of markup asks for -/

namespace Call

/-- The calls that a reader of markup makes.  What it puts somewhere is no text and has no parent
yet, and the node before which it puts something is no text. -/
def Dictated (t : Tree) : Call → Prop
  | createElement _ _ | createComment _ | appendDoctype _ _ _ | fillAttrs _ _ => True
  | place piece spot =>
    (∀ c ∈ piece.ids, t.isText c = false ∧ t.parent? c = none) ∧
      ∀ sib ∈ spot.sibling?, t.isText sib = false
  | _ => False

instance (t : Tree) : (c : Call) → Decidable (c.Dictated t)
  | createElement _ _ | createComment _ | appendDoctype _ _ _ | fillAttrs _ _ => .isTrue trivial
  | place piece spot =>
    inferInstanceAs (Decidable ((∀ c ∈ piece.ids, t.isText c = false ∧ t.parent? c = none) ∧
      ∀ sib ∈ spot.sibling?, t.isText sib = false))
  | createHtml _ | createText _ | createDoctype _ _ _ | append _ _ | insertBefore _ _ | detach _
  | appendText _ _ | moveChildren _ _ | regroupLists => .isFalse id

/-- Such calls made one after another, each naming only nodes that exist by then. -/
def AllDictated : List Call → Tree × Log → Prop
  | [], _ => True
  | c :: cs, s =>
    (∀ i ∈ c.ids, i.index < s.1.size) ∧ c.Dictated s.1 ∧ AllDictated cs (c.after s)

instance : (calls : List Call) → (s : Tree × Log) → Decidable (AllDictated calls s)
  | [], _ => .isTrue trivial
  | c :: cs, s =>
    have : Decidable (AllDictated cs (c.after s)) := instDecidableAllDictated cs (c.after s)
    inferInstanceAs (Decidable (_ ∧ _ ∧ AllDictated cs (c.after s)))

end Call

/-! ## Texts among the children -/

namespace Tree

variable {t u : Tree} {c p x : NodeId} {left right : List NodeId} {g : Gap} {content : String}

theorem isText_eq_isSome_text? (t : Tree) (x : NodeId) : t.isText x = (t.text? x).isSome := by
  unfold isText text?
  cases t.payload? x with
  | none => rfl
  | some payload => exact payload.isText_eq_isSome_text?

theorem isText_eq_of_payload? (h : u.payload? x = t.payload? x) : u.isText x = t.isText x := by
  unfold isText
  rw [h]

theorem isText_create (t : Tree) (payload : Payload) (hx : x.index < t.size) :
    (t.create payload).2.isText x = t.isText x := by
  apply isText_eq_of_payload?
  rw [payload?_create, if_neg (Nat.ne_of_lt hx)]

/-- A change of payloads that makes no text of anything else, nor anything else of a text. -/
theorem isText_modify (id : NodeId) (f : Payload → Payload)
    (hf : ∀ payload, t.payload? id = some payload → (f payload).isText = payload.isText) :
    (t.modify id fun m => { m with payload := f m.payload }).isText x = t.isText x := by
  unfold isText
  rw [payload?_modify]
  split
  · next hx =>
    subst hx
    cases hpayload : t.payload? id with
    | none => rfl
    | some payload => exact hf payload hpayload
  · rfl

namespace TextsApart

theorem new : Tree.new.TextsApart := by
  intro p
  have hempty : Tree.new.children p = [] := by
    refine List.eq_nil_iff_forall_not_mem.2 fun x hx => ?_
    -- a child would be the document node, which has no parent
    have hindex : x.index = 0 := Nat.lt_one_iff.1 ((WellLinked.new.kids p).index_lt hx)
    have hparent : Tree.new.parent? x = some p := (WellLinked.new.kids p).parent? hx
    have hnone : Tree.new.parent? x = none := by
      simp [parent?, node?, hindex, Tree.new, Node.detached]
    cases hnone.symm.trans hparent
  rw [hempty]
  exact .nil

/-- Only links and the kinds of the nodes count. -/
theorem of_sameLinks (ht : t.TextsApart) (h : t.WellLinked) (hu : t.SameLinks u)
    (htext : ∀ x : NodeId, x.index < t.size → u.isText x = t.isText x) : u.TextsApart := by
  intro p
  rw [hu.children h]
  refine (ht p).imp_of_mem_imp fun a b ha hb hab => ?_
  rwa [htext a ((h.kids p).index_lt ha), htext b ((h.kids p).index_lt hb)]

theorem create (ht : t.TextsApart) (h : t.WellLinked) (payload : Payload) :
    (t.create payload).2.TextsApart :=
  ht.of_sameLinks h (.create t payload) fun _ => isText_create t payload

/-- A node that stood nowhere may come between any nodes if it is no text, and between nodes that
are no texts if it is one. -/
theorem movedTo (ht : t.TextsApart) (h : t.WellLinked) (hu : t.MovedTo c p left right u)
    (hc : t.Loose c) (hsplit : t.children p = left ++ right)
    (hkind : t.isText c = false ∨
      (∀ a ∈ left.getLast?, t.isText a = false) ∧ ∀ b ∈ right.head?, t.isText b = false) :
    u.TextsApart := by
  have htext : u.isText = t.isText := funext fun x => isText_eq_of_payload? (hu.payload x)
  intro q
  rw [htext, h.children_movedTo hu]
  split
  · have hp := ht p
    rw [hsplit, List.isChain_append] at hp
    obtain ⟨hleft, hright, -⟩ := hp
    refine List.isChain_append.2 ⟨hleft, List.isChain_cons.2 ⟨fun b hb => ?_, hright⟩, ?_⟩
    · rcases hkind with hkind | ⟨-, hkind⟩
      · simp [hkind]
      · simp [hkind b hb]
    · intro a ha b hb
      obtain rfl : c = b := by simpa using hb
      rcases hkind with hkind | ⟨hkind, -⟩
      · simp [hkind]
      · simp [hkind a ha]
  · rw [List.erase_of_not_mem (hc.not_mem (h.kids q))]
    exact ht q

/-- Characters may come into a gap behind which there is no text. -/
theorem textPut (ht : t.TextsApart) (h : t.WellLinked) (hsize : t.size < NodeId.bound)
    (hsplit : t.children g.parent = g.left ++ g.right) (hu : t.TextPut g content u)
    (hright : ∀ b ∈ g.right.head?, t.isText b = false) : u.TextsApart := by
  have hin : ∀ x ∈ g.left ++ g.right, x.index < t.size := fun x hx =>
    (h.kids g.parent).index_lt (hsplit.symm ▸ hx)
  cases hu with
  | @joined last old hend =>
    obtain ⟨-, htext⟩ := endText?_eq_some_iff.1 hend
    refine ht.of_sameLinks h (.modify t last fun _ => .text (old ++ content)) fun x _ =>
      isText_modify last (fun _ => .text (old ++ content)) fun payload hpayload => ?_
    rw [text?, hpayload, Option.bind_some] at htext
    rw [payload.isText_eq_isSome_text?, htext]
    rfl
  | made hend hu =>
    refine (ht.create h _).movedTo (h.create _) hu (loose_create hsize _) ?_
      (Or.inr ⟨fun a ha => ?_, fun b hb => ?_⟩)
    · rw [(SameLinks.create t _).children h, hsplit]
    · rw [isText_create t _ (hin a (List.mem_append_left _ (List.mem_of_getLast? ha))),
        isText_eq_isSome_text?, text?_eq_none_of_endText? hend ha]
      rfl
    · rw [isText_create t _ (hin b (List.mem_append_right _ (List.mem_of_head? hb)))]
      exact hright b hb

end TextsApart

end Tree

/-! ## One call -/

namespace Edit

variable {t : Tree} {spot : Spot} {c : NodeId}

/-- A node without a parent that is no text may be put anywhere. -/
theorem exists_place_node_apart (ht : t.TextsApart) (h : t.WellLinked) (hc : c.index < t.size)
    (hspot : ∀ i ∈ spot.ids, i.index < t.size) (hkind : t.isText c = false)
    (hparent : t.parent? c = none) :
    ∃ u, place (.node c) spot t = .ok () u ∧ u.TextsApart := by
  have hloose := h.loose c hparent
  cases hgap : t.gap? spot with
  | none =>
    obtain ⟨sib, rfl, hsib⟩ := gap?_eq_none hgap
    have hrun := h.insertBefore_eq_detach hc (hspot sib List.mem_cons_self) hsib
    exact ⟨t, hrun.trans (detach_eq_ok_of_loose hloose hc), ht⟩
  | some g =>
    obtain ⟨u, hrun, hu⟩ := h.exists_place_node hloose hc hspot hgap
    exact ⟨u, hrun, ht.movedTo h hu hloose (h.reaches hgap).children_eq (Or.inl hkind)⟩

/-- Characters may be put anywhere but before a text. -/
theorem exists_place_text_apart (ht : t.TextsApart) (h : t.WellLinked)
    (hsize : t.size < NodeId.bound) (hspot : ∀ i ∈ spot.ids, i.index < t.size)
    (hsib : ∀ sib, spot.sibling? = some sib → t.isText sib = false) (content : String) :
    ∃ u, place (.text content) spot t = .ok () u ∧ u.TextsApart := by
  cases hgap : t.gap? spot with
  | none =>
    -- the characters get a node, which is put nowhere
    obtain ⟨sib, rfl, hparent⟩ := gap?_eq_none hgap
    have hnone := textBefore?_eq_none_of_loose (h.loose sib hparent)
    have hmade := index_lt_create hsize (.text content) (Or.inr rfl)
    have hold := index_lt_create hsize (.text content)
      (Or.inl (hspot sib List.mem_cons_self))
    have hrun := (h.create (.text content)).insertBefore_eq_detach hmade hold
      (((SameLinks.create t _).parent sib).trans hparent)
    exact ⟨_, ((placeBefore_text_of_none hnone content).trans hrun).trans
      (detach_eq_ok_of_loose (loose_create hsize _) hmade), ht.create h _⟩
  | some g =>
    have hreach := h.reaches hgap
    obtain ⟨u, hrun, hu⟩ := h.exists_place_text hsize hspot hgap content
    refine ⟨u, hrun, ht.textPut h hsize hreach.children_eq hu fun b hb => ?_⟩
    cases hreach with
    | atEnd _ _ _ => cases hb
    | before hbefore _ _ _ => exact hsib b (hbefore.trans hb)

end Edit

namespace Call

variable {c : Call} {s : Tree × Log}

theorem after_of_edit {e : Edit Unit} (hpass : c.pass = Pass.edit e) (s : Tree × Log) :
    (c.after s).1 = e.leave s.1 := by
  unfold after Edit.leave
  rw [hpass, Pass.edit]
  cases e s.1 <;> rfl

theorem size_le_after (hc : c.Dictated s.1) : s.1.size ≤ (c.after s).1.size := by
  have hmade : ∀ payload, s.1.size ≤ (s.1.create payload).2.size := fun payload =>
    (s.1.size_create payload).symm ▸ Nat.le_succ _
  cases c with
  | createElement name attrs => exact hmade _
  | createComment content => exact hmade _
  | place piece spot =>
    rw [after_of_edit rfl]
    exact (Edit.grows_place piece spot).size_le_leave s.1
  | appendDoctype name publicId systemId =>
    have hK := Edit.composes_grows
    have hgrows : Edit.Grows (Edit.appendDoctype name publicId systemId) :=
      hK.bind (hK.create _) fun id => hK.append .root id
    rw [after_of_edit rfl]
    exact hgrows.size_le_leave s.1
  | fillAttrs id more => exact Nat.le_of_eq (s.1.size_modify id _).symm
  | _ => cases hc

/-- A call of a reader of markup keeps texts apart. -/
theorem textsApart_after (hc : c.Dictated s.1) (hids : ∀ i ∈ c.ids, i.index < s.1.size)
    (hsize : s.1.size < NodeId.bound) (h : s.1.WellLinked) (ht : s.1.TextsApart) :
    (c.after s).1.TextsApart := by
  cases c with
  | createElement name attrs => exact ht.create h _
  | createComment content => exact ht.create h _
  | place piece spot =>
    have hspot : ∀ i ∈ spot.ids, i.index < s.1.size := fun i hi =>
      hids i (List.mem_append_right _ hi)
    rw [after_of_edit rfl]
    obtain ⟨u, hrun, hu⟩ : ∃ u, Edit.place piece spot s.1 = .ok () u ∧ u.TextsApart := by
      cases piece with
      | node id =>
        obtain ⟨hkind, hparent⟩ := hc.1 id List.mem_cons_self
        exact Edit.exists_place_node_apart ht h (hids id List.mem_cons_self) hspot hkind hparent
      | text content => exact Edit.exists_place_text_apart ht h hsize hspot hc.2 content
    rwa [Edit.leave_eq_of_ok hrun]
  | appendDoctype name publicId systemId =>
    -- the doctype is made and then put behind all children of the document
    let payload : Payload := .doctype name publicId systemId
    have hmade := index_lt_create hsize payload (Or.inr rfl)
    have hspot : ∀ i ∈ (Spot.last .root).ids, i.index < (s.1.create payload).2.size := by
      intro i hi
      obtain rfl := List.mem_singleton.1 hi
      exact index_lt_create hsize payload (Or.inl s.1.size_pos)
    have hkind : (s.1.create payload).2.isText (s.1.create payload).1 = false := by
      rw [isText, payload?_create, if_pos (index_create hsize payload)]
      rfl
    obtain ⟨u, hrun, hu⟩ := Edit.exists_place_node_apart (ht.create h payload) (h.create payload)
      hmade hspot hkind (loose_create hsize payload).parent
    have hleave : (Edit.appendDoctype name publicId systemId).leave s.1 = u :=
      Edit.leave_eq_of_ok hrun
    rwa [after_of_edit rfl, hleave]
  | fillAttrs id more =>
    refine ht.of_sameLinks h (.modify s.1 id (Payload.fillAttrs more)) fun x _ =>
      isText_modify id (Payload.fillAttrs more) fun payload _ => ?_
    cases payload <;> rfl
  | _ => cases hc

/-! ## All calls -/

theorem size_le_afterAll {calls : List Call} (hcalls : AllDictated calls s) :
    s.1.size ≤ (afterAll s calls).1.size := by
  induction calls generalizing s with
  | nil => exact Nat.le_refl _
  | cons c calls ih => exact Nat.le_trans (size_le_after hcalls.2.1) (ih hcalls.2.2)

theorem textsApart_afterAll {calls : List Call} (hcalls : AllDictated calls s)
    (hsize : (afterAll s calls).1.size < NodeId.bound) (h : s.1.WellLinked)
    (ht : s.1.TextsApart) (n : Nat) : (afterAll s (calls.take n)).1.TextsApart := by
  induction calls generalizing s n with
  | nil => rwa [List.take_nil]
  | cons c calls ih =>
    obtain ⟨hids, hc, hrest⟩ := hcalls
    have hafter : (c.after s).1.size < NodeId.bound :=
      Nat.lt_of_le_of_lt (size_le_afterAll hrest) hsize
    have hbefore := Nat.lt_of_le_of_lt (size_le_after hc) hafter
    have hsound : Sound False s.1 := fun _ => ⟨h, fun hfalse => hfalse.elim⟩
    have hsound' := c.sound_after (fun hfalse => hfalse.elim) hsound hids
    have hlinked := (hsound' (Nat.le_of_lt hafter)).1
    cases n with
    | zero => exact ht
    | succ n => exact ih hrest hsize hlinked (textsApart_after hc hids hbefore h ht) n

end Call

/-- In no state that the calls of a reader of markup lead to are two neighbouring children of a
node texts. -/
theorem textsApart_of_dictated (calls : List Call) (log : Log)
    (hcalls : Call.AllDictated calls (Tree.new, log))
    (hsize : (Call.afterAll (Tree.new, log) calls).1.size < NodeId.bound) (n : Nat) :
    (Call.afterAll (Tree.new, log) (calls.take n)).1.TextsApart :=
  Call.textsApart_afterAll hcalls hsize .new .new n

/-- The calls that read a text, a table, characters that do not belong into it, and some more
after it. -/
def callsForFoster : List Call :=
  [.createElement (.html "body") [], .place (.node (.ofNat 1)) (.last .root),
    .place (.text "a") (.last (.ofNat 1)), .createElement (.html "table") [],
    .place (.node (.ofNat 3)) (.last (.ofNat 1)),
    .place (.text "b") (.beside (.ofNat 3) (.ofNat 1)), .place (.text "c") (.last (.ofNat 1))]

/-- The characters out of the table join the text before it, those after it get a node. -/
theorem textsApart_of_dictated_foster :
    (Call.afterAll (Tree.new, #[]) callsForFoster).1.TextsApart ∧
    (Call.afterAll (Tree.new, #[]) callsForFoster).1.children (.ofNat 1) =
      [.ofNat 2, .ofNat 3, .ofNat 4] ∧
    (Call.afterAll (Tree.new, #[]) callsForFoster).1.text? (.ofNat 2) = some "ab" ∧
    (Call.afterAll (Tree.new, #[]) callsForFoster).1.text? (.ofNat 4) = some "c" := by
  refine ⟨?_, by decide +kernel⟩
  exact textsApart_of_dictated callsForFoster #[] (by decide +kernel) (by decide +kernel) 7

end DocTree
