import DocTree.Proofs.Rose
import Mathlib.Logic.Relation
set_option autoImplicit false

/-!
# Defects: when the examination of the links finds nothing

No defect is found exactly if the links hold an ordered tree with distinct numbers at
the document (`defect?_eq_none_iff_holds`).  Then the document does not stand below itself.
-/

namespace DocTree

namespace Tree

variable {t : Tree} {seen : Array Bool} {id : NodeId} {before last : Option NodeId}
  {cs : List NodeId} {d : Defect}

/-! ## One child list -/

/-- What the examination of a child list asks of each child: it is in the row, names its
parent and the child before it, and was not examined yet. -/
def Fits (t : Tree) (seen : Array Bool) (id : NodeId) (before : Option NodeId) (c : NodeId) :
    Prop :=
  t.parent? c = some id ∧ t.prevSibling? c = before ∧ seen[c.index]? ≠ some true

/-- What holds at all places of a list holds at its head and at all places behind. -/
theorem forall_split_cons_iff {α : Type} {P : List α → α → Prop} {a : α} {as : List α} :
    (∀ left b right, a :: as = left ++ b :: right → P left b) ↔
      P [] a ∧ ∀ left b right, as = left ++ b :: right → P (a :: left) b := by
  constructor
  · intro h
    refine ⟨h [] a as rfl, fun left b right hsplit => h (a :: left) b right ?_⟩
    rw [hsplit, List.cons_append]
  · rintro ⟨ha, h⟩ left b right hsplit
    cases left with
    | nil =>
      obtain ⟨rfl, -⟩ := List.cons.inj hsplit
      exact ha
    | cons c left =>
      rw [List.cons_append, List.cons.injEq] at hsplit
      obtain ⟨rfl, hsplit⟩ := hsplit
      exact h left b right hsplit

theorem getLast?_cons_or {α : Type} (a : α) (as : List α) (o : Option α) :
    (a :: as).getLast?.or o = as.getLast?.or (some a) := by
  rw [List.getLast?_cons]
  cases as.getLast? <;> rfl

/-- The examination of a child list succeeds if every child fits, and answers the last. -/
theorem checkChildren_eq_ok_iff :
    t.checkChildren seen id before cs = .ok last ↔
      (∀ left c right, cs = left ++ c :: right →
        t.Fits seen id (left.getLast?.or before) c) ∧ last = cs.getLast?.or before := by
  induction cs generalizing before with
  | nil => simp [checkChildren, eq_comm]
  | cons c cs ih =>
    rw [forall_split_cons_iff, getLast?_cons_or]
    simp only [getLast?_cons_or]
    unfold checkChildren
    cases hn : t.node? c with
    | none => simp [Fits, parent?, hn]
    | some n =>
      have hparent : t.parent? c = n.parent := by rw [parent?, hn]; rfl
      have hprev : t.prevSibling? c = n.prevSibling := by rw [prevSibling?, hn]; rfl
      by_cases h1 : n.parent = some id
      · by_cases h2 : n.prevSibling = before
        · by_cases h3 : seen[c.index]? = some true
          · simp [Fits, hparent, hprev, h1, h2, h3]
          · simp [Fits, hparent, hprev, h1, h2, h3, ih]
        · simp [Fits, hparent, hprev, h1, h2]
      · simp [Fits, hparent, hprev, h1]

/-- A child list that was examined without a defect up to its end is linked. -/
theorem hasKids_of_checkChildren
    (h : t.checkChildren seen id none (t.children id) = .ok (t.lastChild? id)) :
    t.HasKids id (t.children id) := by
  obtain ⟨hfits, hlast⟩ := checkChildren_eq_ok_iff.1 h
  have hprev : ∀ left c right, t.children id = left ++ c :: right →
      t.prevSibling? c = left.getLast? := by
    intro left c right hsplit
    rw [(hfits left c right hsplit).2.1, Option.or_none]
  have hlen : (t.children id).length < t.size + 1 := by
    refine Nat.lt_succ_of_le (length_le_size_of_nodup (nodup_of_prevSibling? hprev) ?_)
    intro c hc
    obtain ⟨left, right, hsplit⟩ := List.append_of_mem hc
    exact index_lt_of_parent? (hfits left c right hsplit).1
  refine ⟨(head?_chain t (Nat.succ_pos _) _).symm, ?_, fun left c right hsplit => ?_⟩
  · rw [hlast, Option.or_none]
  · exact ⟨(hfits left c right hsplit).1, hprev left c right hsplit,
      nextSibling?_of_chain hlen left c right hsplit⟩

/-- A linked child list of nodes not yet examined is examined without a defect. -/
theorem HasKids.checkChildren_eq (h : t.HasKids id cs)
    (hseen : ∀ c ∈ cs, seen[c.index]? ≠ some true) :
    t.checkChildren seen id none (t.children id) = .ok (t.lastChild? id) := by
  rw [h.children_eq, checkChildren_eq_ok_iff]
  refine ⟨fun left c right hsplit => ?_, ?_⟩
  · obtain ⟨hparent, hprev, -⟩ := h.kid left c right hsplit
    refine ⟨hparent, ?_, hseen c (by simp [hsplit])⟩
    rw [hprev, Option.or_none]
  · rw [h.last, Option.or_none]

/-! ## All attached nodes -/

theorem getElem?_set!_eq_some_false {i j : Nat} :
    (seen.set! i true)[j]? = some false ↔ seen[j]? = some false ∧ j ≠ i := by
  rw [Array.set!_eq_setIfInBounds, Array.getElem?_setIfInBounds]
  split
  · next hij =>
    subst hij
    split <;> simp
  · next hij => simp [Ne.symm hij]

theorem getElem?_set!_eq_some_true {i j : Nat} (hi : seen[i]? = some false) :
    (seen.set! i true)[j]? = some true ↔ seen[j]? = some true ∨ j = i := by
  have hlt : i < seen.size := (Array.getElem?_eq_some_iff.1 hi).1
  rw [Array.set!_eq_setIfInBounds, Array.getElem?_setIfInBounds]
  split
  · next hij =>
    subst hij
    simp [hlt]
  · next hij => simp [Ne.symm hij]

/-- Below nodes at which no defect is found hang ordered trees without common numbers,
and none of these was marked before. -/
theorem exists_holds_of_defectFrom? {pending : List NodeId} (hsize : seen.size = t.size)
    (h : t.defectFrom? seen pending = none) :
    ∃ rs : List Rose, rs.map Rose.id = pending ∧ (∀ r ∈ rs, t.Holds r) ∧ (Rose.idsAll rs).Nodup ∧
      ∀ x ∈ Rose.idsAll rs, seen[x.index]? = some false := by
  fun_induction Tree.defectFrom? t seen pending with
  | case1 => exact ⟨[], rfl, by simp, List.nodup_nil, by simp [Rose.idsAll]⟩
  | case2 => cases h
  | case3 => cases h
  | case4 => cases h
  | case5 => cases h
  | case6 seen id rest hseen marked last hcheck hlast ih =>
    obtain rfl : t.lastChild? id = last := not_not.1 hlast
    have hmarked : marked.size = t.size := by
      rw [← hsize]
      exact Array.size_setIfInBounds
    obtain ⟨rs, hmap, hholds, hnodup, hunseen⟩ := ih hmarked h
    -- the first of these trees hang at the children, the others at the rest
    obtain ⟨back, rs', rfl, hback, hrest⟩ := List.map_eq_append_iff.1 hmap
    have hids : back.reverse.map Rose.id = t.children id := by
      rw [List.map_reverse, hback, List.reverse_reverse]
    have hin : id.index < t.size := hsize ▸ (Array.getElem?_eq_some_iff.1 hseen).1
    obtain ⟨n, hn⟩ := exists_node?_iff.2 hin
    have hperm : (Rose.idsAll (back.reverse ++ rs')).Perm (Rose.idsAll (back ++ rs')) :=
      Rose.idsAll_perm (back.reverse_perm.append_right rs')
    have hfresh : ∀ x ∈ Rose.idsAll (back.reverse ++ rs'),
        seen[x.index]? = some false ∧ x.index ≠ id.index := fun x hx =>
      getElem?_set!_eq_some_false.1 (hunseen x (hperm.mem_iff.1 hx))
    refine ⟨.node id n.payload back.reverse :: rs', ?_, ?_, ?_, ?_⟩
    · rw [List.map_cons, hrest]
      rfl
    · intro r hr
      rcases List.mem_cons.1 hr with rfl | hr
      · refine .node id n.payload back.reverse ?_ ?_ fun k hk => ?_
        · unfold payload?
          rw [hn, Option.map_some]
        · rw [hids]
          exact hasKids_of_checkChildren hcheck
        · exact hholds k (List.mem_append_left _ (List.mem_reverse.1 hk))
      · exact hholds r (List.mem_append_right _ hr)
    · rw [Rose.idsAll_cons, Rose.ids_node, List.cons_append, ← Rose.idsAll_append,
        List.nodup_cons]
      exact ⟨fun hmem => (hfresh id hmem).2 rfl, hperm.nodup_iff.2 hnodup⟩
    · intro x hx
      rw [Rose.idsAll_cons, Rose.ids_node, List.cons_append, ← Rose.idsAll_append] at hx
      rcases List.mem_cons.1 hx with rfl | hx
      · exact hseen
      · exact (hfresh x hx).1

/-- Examining a node that is linked to its children, none of them marked. -/
theorem defectFrom?_cons_of_hasKids {rest : List NodeId} (hseen : seen[id.index]? = some false)
    (hks : t.HasKids id cs)
    (hunseen : ∀ c ∈ cs, (seen.set! id.index true)[c.index]? ≠ some true) :
    t.defectFrom? seen (id :: rest) =
      t.defectFrom? (seen.set! id.index true) (cs.reverse ++ rest) := by
  have hcheck := hks.checkChildren_eq hunseen
  rw [defectFrom?]
  split
  · next h => rw [hseen] at h; cases h
  · next h => rw [hseen] at h; cases h
  · dsimp only
    rw [hcheck]
    simp [hks.children_eq]

/-- No defect is found where ordered trees without common numbers hang, if none of their
nodes was marked. -/
theorem defectFrom?_eq_none_of_holds {rs : List Rose} (hholds : ∀ r ∈ rs, t.Holds r)
    (hnodup : (Rose.idsAll rs).Nodup)
    (hunseen : ∀ x ∈ Rose.idsAll rs, seen[x.index]? = some false) :
    t.defectFrom? seen (rs.map Rose.id) = none := by
  generalize hlen : (Rose.idsAll rs).length = n
  induction n generalizing seen rs with
  | zero =>
    cases rs with
    | nil => rw [List.map_nil, defectFrom?]
    | cons r rs =>
      cases r
      simp [Rose.idsAll, Rose.ids] at hlen
  | succ n ih =>
    cases rs with
    | nil => simp [Rose.idsAll] at hlen
    | cons r rs =>
      cases r with
      | node id payload kids =>
        have hr := hholds _ List.mem_cons_self
        rw [Rose.idsAll_cons, Rose.ids_node, List.cons_append, ← Rose.idsAll_append] at *
        obtain ⟨hid, hrest⟩ := List.nodup_cons.1 hnodup
        have hperm : (Rose.idsAll (kids.reverse ++ rs)).Perm (Rose.idsAll (kids ++ rs)) :=
          Rose.idsAll_perm (kids.reverse_perm.append_right rs)
        have hmarked : ∀ x ∈ Rose.idsAll (kids ++ rs),
            (seen.set! id.index true)[x.index]? = some false := by
          intro x hx
          refine getElem?_set!_eq_some_false.2 ⟨hunseen x (List.mem_cons_of_mem _ hx), ?_⟩
          intro hxid
          exact hid (NodeId.index_inj.1 hxid ▸ hx)
        have hkids : ∀ c ∈ kids.map Rose.id,
            (seen.set! id.index true)[c.index]? ≠ some true := by
          intro c hc
          have hmem : c ∈ Rose.idsAll (kids ++ rs) := by
            rw [Rose.idsAll_append]
            exact List.mem_append_left _ (Rose.map_id_subset_idsAll kids hc)
          rw [hmarked c hmem]
          simp
        rw [List.map_cons]
        change t.defectFrom? seen (id :: rs.map Rose.id) = none
        rw [defectFrom?_cons_of_hasKids (hunseen id List.mem_cons_self) hr.hasKids hkids,
          ← List.map_reverse, ← List.map_append]
        refine ih (fun s hs => ?_) (hperm.nodup_iff.2 hrest)
          (fun x hx => hmarked x (hperm.mem_iff.1 hx)) ?_
        · rcases List.mem_append.1 hs with hs | hs
          · exact hr.kid s (List.mem_reverse.1 hs)
          · exact hholds s (List.mem_cons_of_mem _ hs)
        · rw [hperm.length_eq]
          exact Nat.succ.inj hlen

/-- No defect is found exactly if the links hold an ordered tree with distinct numbers at
the document. -/
theorem defect?_eq_none_iff_holds :
    t.defect? = none ↔ ∃ r : Rose, t.Holds r ∧ r.ids.Nodup ∧ r.id = .root := by
  have hblank : ∀ x : NodeId, x.index < t.size →
      (Array.replicate t.size false)[x.index]? = some false := by
    intro x hx
    rw [Array.getElem?_replicate, if_pos hx]
  constructor
  · intro h
    obtain ⟨rs, hmap, hholds, hnodup, -⟩ := exists_holds_of_defectFrom? Array.size_replicate h
    obtain ⟨r, rs, rfl, hid, hrs⟩ := List.map_eq_cons_iff.1 hmap
    obtain rfl := List.map_eq_nil_iff.1 hrs
    rw [Rose.idsAll_cons, Rose.idsAll_nil, List.append_nil] at hnodup
    exact ⟨r, hholds r List.mem_cons_self, hnodup, hid⟩
  · rintro ⟨r, hr, hnodup, hid⟩
    have hnone := @defectFrom?_eq_none_of_holds t (Array.replicate t.size false) [r]
      (by simpa using hr) (by simpa [Rose.idsAll] using hnodup) (by
        intro x hx
        rw [Rose.idsAll_cons, Rose.idsAll_nil, List.append_nil] at hx
        exact hblank x (hr.index_lt x hx))
    rwa [List.map_singleton, hid] at hnone

/-! ## What stands below a node -/

/-- `b` stands below `a`: among its children, or among theirs, and so on. -/
def Below (t : Tree) : NodeId → NodeId → Prop :=
  Relation.TransGen fun p c => c ∈ t.children p

/-- The nodes below a node of a held tree are nodes of that tree other than its root. -/
theorem Holds.mem_of_below {r : Rose} {x y : NodeId} (h : t.Holds r) (hx : x ∈ r.ids)
    (hxy : t.Below x y) : y ∈ Rose.idsAll r.kids := by
  have hchild : ∀ x ∈ r.ids, ∀ c ∈ t.children x, c ∈ Rose.idsAll r.kids := by
    intro x hx c hc
    obtain ⟨ks, hks, hbelow⟩ := h.hasKids_of_mem x hx
    rw [hks.children_eq] at hc
    exact hbelow c hc
  induction hxy with
  | single hc => exact hchild x hx _ hc
  | tail _ hc ih =>
    cases r
    exact hchild _ (List.mem_cons_of_mem _ ih) _ hc

/-- No node of a held tree stands below itself. -/
theorem Holds.not_below_self {r : Rose} {x : NodeId} (h : t.Holds r) (hnodup : r.ids.Nodup)
    (hx : x ∈ r.ids) : ¬ t.Below x x := by
  intro hbelow
  obtain ⟨s, rfl, hs, hsub⟩ := h.exists_holds_of_mem hx
  have hids := hsub.nodup hnodup
  rw [s.ids_eq] at hids
  exact (List.nodup_cons.1 hids).1 (hs.mem_of_below s.id_mem_ids hbelow)

/-- Where no defect is found the document does not stand below itself. -/
theorem not_below_root_of_defect?_eq_none (h : t.defect? = none) : ¬ t.Below .root .root := by
  obtain ⟨r, hr, hnodup, hid⟩ := defect?_eq_none_iff_holds.1 h
  exact hr.not_below_self hnodup (hid ▸ r.id_mem_ids)

end Tree

end DocTree
