import DocTree.Proofs.Defects
set_option autoImplicit false

/-!
# Examination: following the links wherever they lead

`defect?` reads the children of a node from a chain of siblings that is cut where it is
longer than the row.  `Scans` and `Examines` say what is found when nothing is cut: they
have one rule for each turn of the examination, so a derivation is an examination that
comes to its end.  Every examination does, with the answer of `defect?` (`examines_iff`):
a chain of siblings whose backward links agree with it cannot run in a circle.
-/

namespace DocTree

namespace Tree

variable {t : Tree} {seen : Array Bool} {id c : NodeId} {before here : Option NodeId}
  {cs pending : List NodeId} {d : Defect}

/-! ## One child -/

/-- What is wrong with the child `c` of `id` that comes after `before`. -/
def childDefect? (t : Tree) (seen : Array Bool) (id : NodeId) (before : Option NodeId)
    (c : NodeId) : Option Defect :=
  match t.node? c with
  | none => some (.outside c)
  | some n =>
    if n.parent ≠ some id then some (.strayParent c id n.parent)
    else if n.prevSibling ≠ before then some (.brokenSiblings c)
    else if seen[c.index]? = some true then some (.repeated c)
    else none

theorem checkChildren_cons_of_childDefect?_eq_some (h : t.childDefect? seen id before c = some d) :
    t.checkChildren seen id before (c :: cs) = .error d := by
  unfold childDefect? at h
  unfold checkChildren
  cases hn : t.node? c with
  | none =>
    rw [hn] at h
    rw [← Option.some.inj h]
  | some n =>
    simp only [hn] at h ⊢
    split_ifs at h ⊢ <;> simp_all

theorem checkChildren_cons_of_childDefect?_eq_none (h : t.childDefect? seen id before c = none) :
    t.checkChildren seen id before (c :: cs) = t.checkChildren seen id (some c) cs := by
  unfold childDefect? at h
  rw [checkChildren]
  cases hn : t.node? c with
  | none => simp [hn] at h
  | some n =>
    simp only [hn] at h ⊢
    split_ifs at h ⊢
    rfl

/-- A child with which nothing is wrong names its parent and the child before it. -/
theorem links_of_childDefect?_eq_none (h : t.childDefect? seen id before c = none) :
    t.parent? c = some id ∧ t.prevSibling? c = before := by
  unfold childDefect? at h
  cases hn : t.node? c with
  | none => simp [hn] at h
  | some n =>
    simp only [hn] at h
    split_ifs at h with hparent hprev
    exact ⟨by rw [parent?, hn, Option.bind_some, not_not.1 hparent],
      by rw [prevSibling?, hn, Option.bind_some, not_not.1 hprev]⟩

/-! ## One child list -/

/-- Following the siblings of `here` to the end, the children of `id` after `before` are
the given ones, or the given defect is met. -/
inductive Scans (t : Tree) (seen : Array Bool) (id : NodeId) :
    (before here : Option NodeId) → Except Defect (List NodeId) → Prop where
  | last {before : Option NodeId} (h : t.lastChild? id = before) :
    Scans t seen id before none (.ok [])
  | wrongLast {before : Option NodeId} (h : t.lastChild? id ≠ before) :
    Scans t seen id before none (.error (.brokenSiblings id))
  | wrongChild {before : Option NodeId} {c : NodeId} {d : Defect}
    (h : t.childDefect? seen id before c = some d) : Scans t seen id before (some c) (.error d)
  | child {before : Option NodeId} {c : NodeId} {r : Except Defect (List NodeId)}
    (h : t.childDefect? seen id before c = none)
    (hrest : Scans t seen id (some c) (t.nextSibling? c) r) :
    Scans t seen id before (some c) (r.map (c :: ·))

/-- No two things are found in one child list. -/
theorem Scans.unique {r r' : Except Defect (List NodeId)} (h : t.Scans seen id before here r)
    (h' : t.Scans seen id before here r') : r = r' := by
  induction h generalizing r' with
  | last hlast =>
    cases h' with
    | last => rfl
    | wrongLast hlast' => exact absurd hlast hlast'
  | wrongLast hlast =>
    cases h' with
    | last hlast' => exact absurd hlast' hlast
    | wrongLast => rfl
  | wrongChild hc =>
    cases h' with
    | wrongChild hc' => rw [Option.some.inj (hc.symm.trans hc')]
    | child hc' => cases hc.symm.trans hc'
  | child hc _ ih =>
    cases h' with
    | wrongChild hc' => cases hc.symm.trans hc'
    | child _ hrest' => rw [ih hrest']

/-- What is found where the chain of siblings is the given list. -/
def scanned (t : Tree) (seen : Array Bool) (id : NodeId) (before : Option NodeId)
    (cs : List NodeId) : Except Defect (List NodeId) :=
  match t.checkChildren seen id before cs with
  | .error d => .error d
  | .ok last => if t.lastChild? id = last then .ok cs else .error (.brokenSiblings id)

theorem scanned_cons (h : t.childDefect? seen id before c = none) :
    t.scanned seen id before (c :: cs) = (t.scanned seen id (some c) cs).map (c :: ·) := by
  unfold scanned
  rw [checkChildren_cons_of_childDefect?_eq_none h]
  cases t.checkChildren seen id (some c) cs with
  | error d => rfl
  | ok last =>
    dsimp only
    split <;> rfl

/-- The end of a chain is met before the chain is cut: the children passed before it are
distinct nodes of the row. -/
theorem scans_chain {left : List NodeId} {limit : Nat} (hlen : t.size < left.length + limit)
    (hleft : ∀ l c r, left = l ++ c :: r →
      t.parent? c = some id ∧ t.prevSibling? c = l.getLast?) :
    t.Scans seen id left.getLast? here (t.scanned seen id left.getLast? (t.chain limit here)) := by
  induction limit generalizing left here with
  | zero =>
    have hin : ∀ c ∈ left, c.index < t.size := by
      intro c hc
      obtain ⟨l, r, hsplit⟩ := List.append_of_mem hc
      exact index_lt_of_parent? (hleft l c r hsplit).1
    have hnodup : left.Nodup := nodup_of_prevSibling? fun l c r hsplit => (hleft l c r hsplit).2
    have hle := length_le_size_of_nodup hnodup hin
    omega
  | succ limit ih =>
    cases here with
    | none =>
      rw [chain_none]
      unfold scanned checkChildren
      dsimp only
      split
      · next hlast => exact .last hlast
      · next hlast => exact .wrongLast hlast
    | some c =>
      rw [chain_succ_some]
      cases hc : t.childDefect? seen id left.getLast? c with
      | some d =>
        unfold scanned
        rw [checkChildren_cons_of_childDefect?_eq_some hc]
        exact .wrongChild hc
      | none =>
        rw [scanned_cons hc]
        refine .child hc ?_
        have hnext := @ih (t.nextSibling? c) (left ++ [c])
          (by rw [List.length_append, List.length_singleton]; omega) ?_
        · rwa [List.getLast?_concat] at hnext
        · intro l b r hsplit
          rcases List.eq_nil_or_concat' r with rfl | ⟨r', e, rfl⟩
          · obtain ⟨rfl, hbc⟩ := List.append_inj' hsplit rfl
            obtain rfl : c = b := (List.cons.inj hbc).1
            exact links_of_childDefect?_eq_none hc
          · rw [← List.cons_append, ← List.append_assoc] at hsplit
            exact hleft l b r' (List.append_inj' hsplit rfl).1

/-- The children of a node are scanned as `children` reads them. -/
theorem scans_children (t : Tree) (seen : Array Bool) (id : NodeId) :
    t.Scans seen id none (t.firstChild? id) (t.scanned seen id none (t.children id)) := by
  refine @scans_chain t seen id (t.firstChild? id) [] (t.size + 1) ?_ ?_
  · rw [List.length_nil]
    omega
  · intro l c r hsplit
    simp at hsplit

/-! ## All attached nodes -/

/-- Examining the `pending` nodes and all that is below them comes to its end with the
given defect, or without any. -/
inductive Examines (t : Tree) :
    (seen : Array Bool) → (pending : List NodeId) → Option Defect → Prop where
  | nil {seen : Array Bool} : Examines t seen [] none
  | outside {seen : Array Bool} {id : NodeId} {rest : List NodeId}
    (h : seen[id.index]? = none) : Examines t seen (id :: rest) (some (.outside id))
  | repeated {seen : Array Bool} {id : NodeId} {rest : List NodeId}
    (h : seen[id.index]? = some true) : Examines t seen (id :: rest) (some (.repeated id))
  | wrongChildren {seen : Array Bool} {id : NodeId} {rest : List NodeId} {d : Defect}
    (h : seen[id.index]? = some false)
    (hscan : t.Scans (seen.set! id.index true) id none (t.firstChild? id) (.error d)) :
    Examines t seen (id :: rest) (some d)
  | node {seen : Array Bool} {id : NodeId} {rest cs : List NodeId} {o : Option Defect}
    (h : seen[id.index]? = some false)
    (hscan : t.Scans (seen.set! id.index true) id none (t.firstChild? id) (.ok cs))
    (hrest : Examines t (seen.set! id.index true) (cs.reverse ++ rest) o) :
    Examines t seen (id :: rest) o

/-- An examination comes to one end only. -/
theorem Examines.unique {o o' : Option Defect} (h : t.Examines seen pending o)
    (h' : t.Examines seen pending o') : o = o' := by
  induction h generalizing o' with
  | nil => cases h'; rfl
  | outside hseen => cases h' <;> simp_all
  | repeated hseen => cases h' <;> simp_all
  | wrongChildren hseen hscan =>
    cases h' with
    | outside hseen' => cases hseen.symm.trans hseen'
    | repeated hseen' => cases hseen.symm.trans hseen'
    | wrongChildren _ hscan' => cases hscan.unique hscan'; rfl
    | node _ hscan' => cases hscan.unique hscan'
  | node hseen hscan _ ih =>
    cases h' with
    | outside hseen' => cases hseen.symm.trans hseen'
    | repeated hseen' => cases hseen.symm.trans hseen'
    | wrongChildren _ hscan' => cases hscan.unique hscan'
    | node _ hscan' hrest' =>
      cases hscan.unique hscan'
      exact ih hrest'

/-- Every examination comes to an end, and it is the one that `defectFrom?` answers. -/
theorem examines_defectFrom? (t : Tree) (seen : Array Bool) (pending : List NodeId) :
    t.Examines seen pending (t.defectFrom? seen pending) := by
  fun_induction Tree.defectFrom? t seen pending with
  | case1 => exact .nil
  | case2 seen id rest hseen => exact .outside hseen
  | case3 seen id rest hseen => exact .repeated hseen
  | case4 seen id rest hseen marked d hcheck =>
    have hscan := t.scans_children marked id
    unfold scanned at hscan
    rw [hcheck] at hscan
    exact .wrongChildren hseen hscan
  | case5 seen id rest hseen marked last hcheck hlast =>
    have hscan := t.scans_children marked id
    unfold scanned at hscan
    rw [hcheck] at hscan
    simp only [if_neg hlast] at hscan
    exact .wrongChildren hseen hscan
  | case6 seen id rest hseen marked last hcheck hlast ih =>
    have hscan := t.scans_children marked id
    unfold scanned at hscan
    rw [hcheck] at hscan
    simp only [if_pos (not_not.1 hlast)] at hscan
    exact .node hseen hscan ih

theorem examines_iff {o : Option Defect} :
    t.Examines seen pending o ↔ t.defectFrom? seen pending = o := by
  constructor
  · exact fun h => (t.examines_defectFrom? seen pending).unique h
  · rintro rfl
    exact t.examines_defectFrom? seen pending

/-- Wherever the links of a row lead, the examination of its attached nodes comes to an end
with the answer of `defect?`.  That is no defect exactly if the links hold an ordered tree
with distinct numbers at the document. -/
theorem defect?_decides_tree (t : Tree) :
    (∀ o, t.Examines (Array.replicate t.size false) [.root] o ↔ t.defect? = o) ∧
      (t.defect? = none ↔ ∃ r : Rose, r.id = .root ∧ r.ids.Nodup ∧ t.Holds r) := by
  refine ⟨fun o => examines_iff, ?_⟩
  rw [defect?_eq_none_iff_holds]
  exact exists_congr fun r => by tauto

end Tree

end DocTree
