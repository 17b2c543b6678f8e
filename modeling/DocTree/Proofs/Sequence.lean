import DocTree.Proofs.Findings
import DocTree.Proofs.Walked
import Mathlib.Data.Seq.Basic
set_option autoImplicit false

/-!
# Sequence: reading in document order without a bound

What is read downwards from a node is a sequence of numbers that need not come to an end.
`preorder` reads finite fronts of it (`take_sequence`).  In a row without defects it is the list of
all nodes of the document (`sequence_root_eq`).

A walk whose visits leave the tree alone follows this sequence as far as there are nodes in the
row, and it is stopped exactly if the sequence is longer than that (`walk_sequence`).  The sequence
may repeat numbers without running in a circle, and it may run in a circle: only its length
counts.
-/

namespace DocTree

namespace Tree

variable {t : Tree} {start : Option NodeId} {p c : NodeId} {ks left right : List NodeId}

/-! ## Chains of siblings that come to an end -/

theorem Follows.drop (h : t.Follows start (left ++ c :: right)) :
    t.Follows (t.nextSibling? c) right := by
  induction left generalizing start with
  | nil => exact h.2
  | cons b left ih => exact ih h.2

/-- Behind equal numbers the chain goes on equally, so one that ends has no equal numbers. -/
theorem Follows.nodup (h : t.Follows start ks) : ks.Nodup := by
  induction ks generalizing start with
  | nil => exact List.nodup_nil
  | cons c cs ih =>
    refine List.nodup_cons.2 ⟨fun hmem => ?_, ih h.2⟩
    obtain ⟨left, right, hsplit⟩ := List.append_of_mem hmem
    have hfirst : t.Follows (t.nextSibling? c) (left ++ c :: right) := hsplit ▸ h.2
    have hlength := congrArg List.length (hfirst.eq hfirst.drop)
    rw [List.length_append, List.length_cons] at hlength
    omega

theorem index_lt_of_nextSibling? {d : NodeId} (h : t.nextSibling? c = some d) :
    c.index < t.size := by
  obtain ⟨n, hn, -⟩ := Option.bind_eq_some_iff.1 h
  exact exists_node?_iff.1 ⟨n, hn⟩

/-- All numbers of the chain but the last belong to nodes. -/
theorem Follows.length_le (h : t.Follows start ks) : ks.length ≤ t.size + 1 := by
  rcases List.eq_nil_or_concat' ks with rfl | ⟨front, last, rfl⟩
  · exact Nat.zero_le _
  · have hin : ∀ c ∈ front, c.index < t.size := by
      intro c hc
      obtain ⟨left, right, rfl⟩ := List.append_of_mem hc
      rw [List.append_assoc, List.cons_append] at h
      have hnext := h.drop
      cases right with
      | nil => exact index_lt_of_nextSibling? hnext.1
      | cons d right => exact index_lt_of_nextSibling? hnext.1
    have hfront : front.Nodup := (List.nodup_append.1 h.nodup).1
    rw [List.length_append, List.length_singleton]
    exact Nat.succ_le_succ (length_le_size_of_nodup hfront hin)

theorem Follows.chain_eq {limit : Nat} (h : t.Follows start ks) (hlimit : ks.length ≤ limit) :
    t.chain limit start = ks := by
  induction ks generalizing start limit with
  | nil =>
    obtain rfl : start = none := h
    exact t.chain_none limit
  | cons c cs ih =>
    obtain ⟨rfl, hrest⟩ := h
    rw [List.length_cons] at hlimit
    obtain ⟨limit, rfl⟩ : ∃ k, limit = k + 1 := ⟨limit - 1, by omega⟩
    rw [chain_succ_some, ih hrest (Nat.le_of_succ_le_succ hlimit)]

/-- Of a chain that comes to an end, nothing is cut off where the children are read. -/
theorem Follows.children_eq (h : t.Follows (t.firstChild? p) ks) : t.children p = ks :=
  h.chain_eq h.length_le

/-! ## The sequence -/

/-- What is read next where the subtrees at the given numbers are to be read, and what is to be
read after it. -/
def readNext (t : Tree) : List NodeId → Option (NodeId × List NodeId)
  | [] => none
  | id :: pending => some (id, t.children id ++ pending)

/-- All that is read where the subtrees at the `pending` numbers are to be read, in document
order. -/
def sequence (t : Tree) (pending : List NodeId) : Stream'.Seq NodeId := .corec t.readNext pending

@[simp] theorem sequence_nil (t : Tree) : t.sequence [] = .nil := Stream'.Seq.corec_nil _ _ rfl

@[simp] theorem sequence_cons (t : Tree) (id : NodeId) (pending : List NodeId) :
    t.sequence (id :: pending) = .cons id (t.sequence (t.children id ++ pending)) :=
  Stream'.Seq.corec_cons rfl

theorem take_sequence (t : Tree) (n : Nat) (pending : List NodeId) :
    (t.sequence pending).take n = t.preorder n pending := by
  induction n generalizing pending with
  | zero => rfl
  | succ n ih =>
    cases pending with
    | nil => rw [sequence_nil, Stream'.Seq.take_nil, preorder_nil]
    | cons id pending =>
      rw [sequence_cons, preorder_succ_cons, Stream'.Seq.take_succ_cons, ih]

/-- Where ordered trees are held, the sequence comes to its end behind the last of them. -/
theorem sequence_eq_idsAll {rs : List Rose} (h : ∀ r ∈ rs, t.Holds r) :
    t.sequence (rs.map Rose.id) = Stream'.Seq.ofList (Rose.idsAll rs) := by
  generalize hlength : (Rose.idsAll rs).length = n
  induction n generalizing rs with
  | zero =>
    cases rs with
    | nil => rw [List.map_nil, sequence_nil, Rose.idsAll_nil, Stream'.Seq.ofList_nil]
    | cons r rs => simp [Rose.ids_eq] at hlength
  | succ n ih =>
    cases rs with
    | nil => simp at hlength
    | cons r rs =>
      cases r with
      | node id payload kids =>
        have hr := h _ List.mem_cons_self
        have hall : ∀ s ∈ kids ++ rs, t.Holds s := fun s hs =>
          (List.mem_append.1 hs).elim (hr.kid s) fun hs => h s (List.mem_cons_of_mem _ hs)
        rw [Rose.idsAll_cons, Rose.ids_node, List.cons_append, ← Rose.idsAll_append] at hlength ⊢
        rw [List.map_cons]
        change t.sequence (id :: rs.map Rose.id) = _
        rw [sequence_cons, hr.hasKids.children_eq, ← List.map_append,
          ih hall (Nat.succ.inj hlength), Stream'.Seq.ofList_cons]

theorem Holds.sequence_eq {r : Rose} (h : t.Holds r) :
    t.sequence [r.id] = Stream'.Seq.ofList r.ids := by
  have hall := @sequence_eq_idsAll t [r] (by simpa using h)
  rwa [List.map_singleton, Rose.idsAll_singleton] at hall

/-- Without a defect the sequence is the list of the nodes of the document, each once. -/
theorem sequence_root_eq (h : t.defect? = none) :
    t.sequence [.root] = Stream'.Seq.ofList (t.descendants .root) ∧
      (t.descendants .root).Nodup ∧ (t.descendants .root).length ≤ t.size := by
  obtain ⟨r, hr, hnodup, hroot⟩ := defect?_eq_none_iff_holds.1 h
  rw [hr.descendants_root hroot hnodup]
  exact ⟨hroot ▸ hr.sequence_eq, hnodup, hr.length_ids_le hnodup⟩

end Tree

/-! ## Walks that leave the tree alone -/

section Watching

variable {σ α : Type}

/-- What a state has become after a note of each of the numbers was taken in it. -/
def noteAll (note : NodeId → σ → σ) (ids : List NodeId) (s : σ) : σ :=
  ids.foldl (fun s id => note id s) s

/-- A walk is stopped at a node, or comes to its end if there is none. -/
def stoppedAt (a : α) (x : Tree × σ) : Option NodeId → EStateM.Result Fault (Tree × σ) α
  | none => .ok a x
  | some id => .error (.circular id) x

variable {t : Tree} {visit : NodeId → Pass σ Unit} {note : NodeId → σ → σ}

/-- After `count` visits, a walk goes on through the sequence of what is pending for as many visits
as there is room for. -/
theorem walkFrom_sequence (hvisit : ∀ id s, visit id (t, s) = .ok () (t, note id s))
    {steps count : Nat} (hcount : count ≤ t.size) (hsteps : t.size < count + steps)
    (pending : List NodeId) (s : σ) :
    walkFrom visit steps count pending (t, s) =
      stoppedAt [] (t, noteAll note ((t.sequence pending).take (t.size - count)) s)
        ((t.sequence pending).get? (t.size - count)) := by
  induction steps generalizing count pending s with
  | zero => omega
  | succ steps ih =>
    cases pending with
    | nil =>
      rw [Tree.take_sequence, Tree.preorder_nil, Tree.sequence_nil, Stream'.Seq.get?_nil]
      rfl
    | cons id pending =>
      rcases Nat.lt_or_ge count t.size with hroom | hfull
      · obtain ⟨k, hk⟩ : ∃ k, t.size - count = k + 1 := ⟨t.size - count - 1, by omega⟩
        have hk' : t.size - (count + 1) = k := by omega
        rw [walkFrom_succ_cons hroom (hvisit id s), ih hroom (by omega), hk, hk',
          Tree.take_sequence, Tree.take_sequence, Tree.preorder_succ_cons, Tree.sequence_cons,
          Stream'.Seq.get?_cons_succ]
        rfl
      · rw [walkFrom_of_full hfull, Nat.sub_eq_zero_of_le hfull, Tree.sequence_cons,
          Stream'.Seq.get?_cons_zero]
        rfl

/-- If every chain of siblings comes to an end and no visit changes the tree, a walk visits the
nodes of the sequence in their order, but no more of them than the row has nodes.  It is stopped
exactly if there is one more, which it names and does not visit.  In a row without defects the
sequence from the document has no repetition, so the walk is not stopped there. -/
theorem walk_sequence (t : Tree) (visit : NodeId → Pass σ Unit) (note : NodeId → σ → σ)
    (hfinite : ∀ p, ∃ ks, t.Follows (t.firstChild? p) ks)
    (hvisit : ∀ id s, visit id (t, s) = .ok () (t, note id s)) :
    (∀ p, t.Follows (t.firstChild? p) (t.children p)) ∧
    (∀ start s steps, t.size < steps → walkFrom visit steps 0 [start] (t, s) =
      stoppedAt [] (t, noteAll note ((t.sequence [start]).take t.size) s)
        ((t.sequence [start]).get? t.size)) ∧
    (t.size ≤ NodeId.bound → ∀ start s, walk visit start (t, s) =
      stoppedAt () (t, noteAll note ((t.sequence [start]).take t.size) s)
        ((t.sequence [start]).get? t.size)) ∧
    (t.defect? = none → t.sequence [.root] = Stream'.Seq.ofList (t.descendants .root) ∧
      (t.descendants .root).Nodup ∧ ∀ s steps, t.size < steps →
        walkFrom visit steps 0 [.root] (t, s) =
          .ok [] (t, noteAll note (t.descendants .root) s)) := by
  have hwalk : ∀ start s steps, t.size < steps → walkFrom visit steps 0 [start] (t, s) =
      stoppedAt [] (t, noteAll note ((t.sequence [start]).take t.size) s)
        ((t.sequence [start]).get? t.size) := fun start s steps hsteps =>
    walkFrom_sequence hvisit (Nat.zero_le _) (by omega) [start] s
  refine ⟨fun p => ?_, hwalk, fun hsize start s => ?_, fun hlinks => ?_⟩
  · obtain ⟨ks, hks⟩ := hfinite p
    rwa [hks.children_eq]
  · rw [walk_eq, hwalk start s walkLimit (Nat.lt_succ_of_le hsize)]
    cases (t.sequence [start]).get? t.size <;> rfl
  · obtain ⟨heq, hnodup, hlength⟩ := Tree.sequence_root_eq hlinks
    refine ⟨heq, hnodup, fun s steps hsteps => ?_⟩
    rw [hwalk .root s steps hsteps, Tree.take_sequence, heq, Stream'.Seq.ofList_get?,
      List.getElem?_eq_none hlength]
    rfl

end Watching

/-- A row without circles in which two elements of the document have one child. -/
def sharedChild : Tree where
  nodes := #[
    ⟨.document, none, some (.ofNat 1), some (.ofNat 2), none, none⟩,
    ⟨.element (.html "div") [], some .root, some (.ofNat 3), some (.ofNat 3), none,
      some (.ofNat 2)⟩,
    ⟨.element (.html "p") [], some .root, some (.ofNat 3), some (.ofNat 3), some (.ofNat 1), none⟩,
    ⟨.text "a", some (.ofNat 1), none, none, none, none⟩]
  nodes_nonempty := by decide

theorem exists_follows_sharedChild (p : NodeId) :
    ∃ ks, sharedChild.Follows (sharedChild.firstChild? p) ks := by
  rcases Nat.lt_or_ge p.index sharedChild.size with hp | hp
  · obtain ⟨i, hi, rfl⟩ : ∃ i < 4, p = .ofNat i :=
      ⟨p.index, hp, NodeId.index_inj.1 (NodeId.index_ofNat p.index_lt).symm⟩
    match i, hi with
    | 0, _ => exact ⟨[.ofNat 1, .ofNat 2], rfl, rfl, rfl⟩
    | 1, _ => exact ⟨[.ofNat 3], rfl, rfl⟩
    | 2, _ => exact ⟨[.ofNat 3], rfl, rfl⟩
    | 3, _ => exact ⟨[], rfl⟩
  · exact ⟨[], (Tree.hasKids_nil_of_size_le hp).follows⟩

/-- The child is visited below the first element.  Below the second one there is no room for a
fifth visit. -/
theorem walk_sequence_shared :
    walk (fun id => Pass.note fun ids => ids ++ [id]) .root (sharedChild, []) =
      .error (.circular (.ofNat 3)) (sharedChild, [.root, .ofNat 1, .ofNat 3, .ofNat 2]) ∧
    walk (fun id => Pass.note fun ids => ids ++ [id]) (.ofNat 1) (sharedChild, []) =
      .ok () (sharedChild, [.ofNat 1, .ofNat 3]) := by
  obtain ⟨-, -, hwalk, -⟩ := walk_sequence sharedChild
    (fun id => Pass.note fun ids => ids ++ [id]) (fun id ids => ids ++ [id])
    exists_follows_sharedChild fun _ _ => rfl
  have hkids : sharedChild.children .root = [.ofNat 1, .ofNat 2] ∧
      sharedChild.children (.ofNat 1) = [.ofNat 3] ∧
      sharedChild.children (.ofNat 2) = [.ofNat 3] ∧ sharedChild.children (.ofNat 3) = [] := by
    decide +kernel
  obtain ⟨hroot, hdiv, hp, htext⟩ := hkids
  have hfull : sharedChild.sequence [.root] =
      Stream'.Seq.ofList [.root, .ofNat 1, .ofNat 3, .ofNat 2, .ofNat 3] := by
    simp [hroot, hdiv, hp, htext]
  have hbelow : sharedChild.sequence [.ofNat 1] = Stream'.Seq.ofList [.ofNat 1, .ofNat 3] := by
    simp [hdiv, htext]
  refine ⟨?_, ?_⟩
  · rw [hwalk (by decide), hfull]
    rfl
  · rw [hwalk (by decide), hbelow]
    rfl

end DocTree
