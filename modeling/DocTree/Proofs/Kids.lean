import DocTree.Tree.Links
import Mathlib.Data.List.Induction
import Mathlib.Data.List.Nodup
import Mathlib.Data.List.Perm.Subperm
set_option autoImplicit false

/-!
# Kids: the children of one node as a doubly linked list

`HasKids t p ks` says that the links around `p` describe exactly the child list
`ks`: the parent names the two ends, and each child names its parent and both of its
neighbours.  The predicate speaks of one child list only, so it can be stated of a
row whose other nodes are linked in any way.

A child list described in this way has no repetition (`HasKids.nodup`), and it is the
list that `children` reads (`HasKids.children_eq`).
-/

namespace DocTree

namespace Tree

/-- The links around `p` describe the child list `ks`. -/
structure HasKids (t : Tree) (p : NodeId) (ks : List NodeId) : Prop where
  first : t.firstChild? p = ks.head?
  last : t.lastChild? p = ks.getLast?
  kid : ∀ (left : List NodeId) (c : NodeId) (right : List NodeId), ks = left ++ c :: right →
    t.parent? c = some p ∧ t.prevSibling? c = left.getLast? ∧ t.nextSibling? c = right.head?

/-! ## Numbers in the row -/

/-- A number that has a parent belongs to the row. -/
theorem index_lt_of_parent? {t : Tree} {c p : NodeId} (h : t.parent? c = some p) :
    c.index < t.size := by
  obtain ⟨n, hn, _⟩ := Option.bind_eq_some_iff.1 h
  exact exists_node?_iff.1 ⟨n, hn⟩

/-- A number that has a first child belongs to the row. -/
theorem index_lt_of_firstChild? {t : Tree} {c p : NodeId} (h : t.firstChild? p = some c) :
    p.index < t.size := by
  obtain ⟨n, hn, _⟩ := Option.bind_eq_some_iff.1 h
  exact exists_node?_iff.1 ⟨n, hn⟩

/-- Distinct numbers of the row are at most as many as its nodes. -/
theorem length_le_size_of_nodup {t : Tree} {ks : List NodeId} (hnodup : ks.Nodup)
    (hks : ∀ c ∈ ks, c.index < t.size) : ks.length ≤ t.size := by
  have hmap : (ks.map NodeId.index).Nodup :=
    hnodup.map fun a b hab => NodeId.index_inj.1 hab
  have hsub : ks.map NodeId.index ⊆ List.range t.size := by
    intro i hi
    obtain ⟨c, hc, rfl⟩ := List.mem_map.1 hi
    exact List.mem_range.2 (hks c hc)
  have hle := (List.subperm_of_subset hmap hsub).length_le
  rwa [List.length_map, List.length_range] at hle

/-! ## Chains and lists -/

/-- A list in which no element stands twice before a place has no repetition. -/
theorem nodup_of_forall_split {ks : List NodeId}
    (h : ∀ (left : List NodeId) (c : NodeId) (right : List NodeId),
      ks = left ++ c :: right → c ∉ left) : ks.Nodup := by
  induction ks using List.reverseRecOn with
  | nil => exact List.nodup_nil
  | append_singleton front c ih =>
    have hfront : front.Nodup := by
      refine ih fun left d right hsplit => h left d (right ++ [c]) ?_
      rw [hsplit, List.append_assoc, List.cons_append]
    exact hfront.append (List.nodup_singleton c) fun d hd hdc => by
      rw [List.mem_singleton.1 hdc] at hd
      exact h front c [] rfl hd

/-- Backward links that agree with the order of a list exclude repetitions: of two
places with one node, the places before them would hold one node too. -/
theorem nodup_of_prevSibling? {t : Tree} {ks : List NodeId}
    (h : ∀ (left : List NodeId) (c : NodeId) (right : List NodeId),
      ks = left ++ c :: right → t.prevSibling? c = left.getLast?) : ks.Nodup := by
  have hbefore : ∀ (n : Nat) (left : List NodeId) (c : NodeId) (right : List NodeId),
      left.length = n → ks = left ++ c :: right → c ∉ left := by
    intro n
    induction n with
    | zero =>
      intro left c right hlen _
      rw [List.length_eq_zero_iff.1 hlen]
      exact List.not_mem_nil
    | succ n ih =>
      intro left c right hlen hsplit hmem
      obtain ⟨left', b, rfl⟩ := List.eq_nil_or_concat' left |>.resolve_left (by
        rintro rfl
        simp at hlen)
      have hlen' : left'.length = n := by simpa using hlen
      have hc : t.prevSibling? c = some b := by
        rw [h _ _ _ hsplit, List.getLast?_concat]
      obtain ⟨l, r, hlr⟩ := List.append_of_mem hmem
      have hc' : t.prevSibling? c = l.getLast? := by
        apply h l c (r ++ c :: right)
        rw [hsplit, hlr, List.append_assoc, List.cons_append]
      obtain ⟨l', rfl⟩ : ∃ l', l = l' ++ [b] := by
        have hlast : l.getLast? = some b := hc'.symm.trans hc
        exact ⟨l.dropLast, (List.dropLast_append_getLast? b hlast).symm⟩
      have hb : b ∈ left' := by
        have hle : (l' ++ [b]).length ≤ left'.length := by
          have := congrArg List.length hlr
          simp only [List.length_append, List.length_cons, List.length_nil] at this ⊢
          omega
        have hpre : l' ++ [b] <+: left' :=
          List.prefix_of_prefix_length_le ⟨c :: r, hlr.symm⟩ ⟨[b], rfl⟩ hle
        exact hpre.subset (by simp)
      refine ih left' b (c :: right) hlen' ?_ hb
      rw [hsplit, List.append_assoc, List.singleton_append]
  exact nodup_of_forall_split fun left c right => hbefore left.length left c right rfl

/-- Forward links that agree with the order of a list make the chain read that list. -/
theorem chain_eq_of_nextSibling? {t : Tree} {ks : List NodeId} {limit : Nat}
    (h : ∀ (left : List NodeId) (c : NodeId) (right : List NodeId),
      ks = left ++ c :: right → t.nextSibling? c = right.head?)
    (hlen : ks.length ≤ limit) : t.chain limit ks.head? = ks := by
  induction ks generalizing limit with
  | nil => rw [List.head?_nil, chain_none]
  | cons c cs ih =>
    obtain ⟨limit, rfl⟩ : ∃ k, limit = k + 1 := ⟨limit - 1, by
      rw [List.length_cons] at hlen
      omega⟩
    have hc : t.nextSibling? c = cs.head? := h [] c cs rfl
    rw [List.head?_cons, chain_succ_some, hc, ih]
    · intro left d right hsplit
      apply h (c :: left) d right
      rw [hsplit, List.cons_append]
    · exact Nat.le_of_succ_le_succ hlen

/-- In a chain each number is followed by its next sibling, and a chain that was not
cut ends where there is none. -/
theorem nextSibling?_of_chain {t : Tree} {limit : Nat} {start : Option NodeId}
    (hlen : (t.chain limit start).length < limit) (left : List NodeId) (c : NodeId)
    (right : List NodeId) (hsplit : t.chain limit start = left ++ c :: right) :
    t.nextSibling? c = right.head? := by
  induction left generalizing limit start with
  | nil =>
    cases limit with
    | zero => exact absurd hlen (Nat.not_lt_zero _)
    | succ limit =>
      cases start with
      | none => simp at hsplit
      | some id =>
        rw [chain_succ_some, List.nil_append, List.cons.injEq] at hsplit
        obtain ⟨rfl, hright⟩ := hsplit
        rw [← hright]
        rw [chain_succ_some, List.length_cons] at hlen
        cases hnext : t.nextSibling? id with
        | none => rw [chain_none, List.head?_nil]
        | some d =>
          obtain ⟨k, rfl⟩ : ∃ k, limit = k + 1 := ⟨limit - 1, by omega⟩
          rw [chain_succ_some, List.head?_cons]
  | cons b left ih =>
    cases limit with
    | zero => exact absurd hlen (Nat.not_lt_zero _)
    | succ limit =>
      cases start with
      | none => simp at hsplit
      | some id =>
        rw [chain_succ_some, List.cons_append, List.cons.injEq] at hsplit
        rw [chain_succ_some, List.length_cons] at hlen
        exact ih (Nat.lt_of_succ_lt_succ hlen) hsplit.2

/-- A chain begins at its start. -/
theorem head?_chain (t : Tree) {limit : Nat} (h : 0 < limit) (start : Option NodeId) :
    (t.chain limit start).head? = start := by
  obtain ⟨k, rfl⟩ : ∃ k, limit = k + 1 := ⟨limit - 1, by omega⟩
  cases start with
  | none => rw [chain_none, List.head?_nil]
  | some id => rw [chain_succ_some, List.head?_cons]

/-! ## What a child list determines -/

namespace HasKids

variable {t u : Tree} {p q c : NodeId} {ks ls : List NodeId}

theorem parent? (h : t.HasKids p ks) (hc : c ∈ ks) : t.parent? c = some p := by
  obtain ⟨left, right, hsplit⟩ := List.append_of_mem hc
  exact (h.kid left c right hsplit).1

theorem prevSibling? (h : t.HasKids p ks) {left right : List NodeId}
    (hsplit : ks = left ++ c :: right) : t.prevSibling? c = left.getLast? :=
  (h.kid left c right hsplit).2.1

theorem nextSibling? (h : t.HasKids p ks) {left right : List NodeId}
    (hsplit : ks = left ++ c :: right) : t.nextSibling? c = right.head? :=
  (h.kid left c right hsplit).2.2

theorem index_lt (h : t.HasKids p ks) (hc : c ∈ ks) : c.index < t.size :=
  index_lt_of_parent? (h.parent? hc)

theorem nodup (h : t.HasKids p ks) : ks.Nodup :=
  nodup_of_prevSibling? fun _ _ _ hsplit => h.prevSibling? hsplit

theorem length_le (h : t.HasKids p ks) : ks.length ≤ t.size :=
  length_le_size_of_nodup h.nodup fun _ hc => h.index_lt hc

/-- The child list is the one that is read downwards. -/
theorem children_eq (h : t.HasKids p ks) : t.children p = ks := by
  have hlen := h.length_le
  unfold children
  rw [h.first]
  exact chain_eq_of_nextSibling? (fun _ _ _ hsplit => h.nextSibling? hsplit) (by omega)

/-- The links around a node describe one child list only. -/
theorem eq (h : t.HasKids p ks) (h' : t.HasKids p ls) : ks = ls :=
  h.children_eq.symm.trans h'.children_eq

/-- A node that has children belongs to the row. -/
theorem parent_index_lt (h : t.HasKids p ks) (hc : c ∈ ks) : p.index < t.size := by
  cases ks with
  | nil => exact absurd hc List.not_mem_nil
  | cons d ds => exact index_lt_of_firstChild? h.first

/-- No node is a child of two nodes. -/
theorem not_mem_of_ne (h : t.HasKids p ks) (h' : t.HasKids q ls) (hpq : p ≠ q) (hc : c ∈ ks) :
    c ∉ ls := by
  intro hc'
  have := (h.parent? hc).symm.trans (h'.parent? hc')
  exact hpq (Option.some.inj this)

/-- The child list depends only on the ends named by the parent and on the parent and
sibling links of the children. -/
theorem congr (h : t.HasKids p ks) (hfirst : u.firstChild? p = t.firstChild? p)
    (hlast : u.lastChild? p = t.lastChild? p)
    (hkid : ∀ c ∈ ks, u.parent? c = t.parent? c ∧ u.prevSibling? c = t.prevSibling? c ∧
      u.nextSibling? c = t.nextSibling? c) : u.HasKids p ks where
  first := hfirst.trans h.first
  last := hlast.trans h.last
  kid := by
    intro left c right hsplit
    obtain ⟨hparent, hprev, hnext⟩ := hkid c (by simp [hsplit])
    rw [hparent, hprev, hnext]
    exact h.kid left c right hsplit

end HasKids

/-- A number outside the row has no children. -/
theorem hasKids_nil_of_size_le {t : Tree} {p : NodeId} (h : t.size ≤ p.index) :
    t.HasKids p [] where
  first := by rw [firstChild?, node?_eq_none_iff.2 h]; rfl
  last := by rw [lastChild?, node?_eq_none_iff.2 h]; rfl
  kid := by
    intro left c right hsplit
    simp at hsplit

end Tree

end DocTree
