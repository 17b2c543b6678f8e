import DocTree.Proofs.Examination
import DocTree.Proofs.WellLinked
set_option autoImplicit false

/-!
# Findings: every defect that is found is there

`Reached` nodes are those to which first children and next siblings lead from the document,
wherever they lead.  A defect that `defect?` answers says something of a reached node, and what
it says is so (`shows_of_defect?`).  In particular only the document is ever met a second time:
a node comes to be pending when it is found below the one parent that it names, and no node
but the document is found without naming one.  This is the invariant of the examination
(`Examining`), kept in each state that it comes to (`ComesTo.examining`).

In a well linked row nothing is left of this but that the document may stand below itself
(`WellLinked.defect?_eq_none_or_repeated`).
-/

namespace DocTree

namespace Tree

variable {t : Tree} {seen : Array Bool} {id c p x : NodeId} {start here : Option NodeId}
  {left right cs ks rest pending : List NodeId} {d : Defect}

/-! ## Where links lead -/

/-- Next siblings lead from `start` past the nodes `left` to `here`. -/
def Leads (t : Tree) : Option NodeId → List NodeId → Option NodeId → Prop
  | start, [], here => start = here
  | start, c :: cs, here => start = some c ∧ t.Leads (t.nextSibling? c) cs here

/-- The node `c` lies on the sibling chain that begins at the first child of `p`, behind the
nodes `left`. -/
def OnChain (t : Tree) (p : NodeId) (left : List NodeId) (c : NodeId) : Prop :=
  t.Leads (t.firstChild? p) left (some c)

/-- First children and next siblings lead from the document to this number. -/
inductive Reached (t : Tree) : NodeId → Prop where
  | root : Reached t .root
  | chain {p c : NodeId} {left : List NodeId} (hp : Reached t p) (hc : t.OnChain p left c) :
    Reached t c

theorem Leads.concat (h : t.Leads start left (some c)) :
    t.Leads start (left ++ [c]) (t.nextSibling? c) := by
  induction left generalizing start with
  | nil => exact ⟨h, rfl⟩
  | cons b left ih => exact ⟨h.1, ih h.2⟩

theorem leads_none_iff : t.Leads start cs none ↔ t.Follows start cs := by
  induction cs generalizing start with
  | nil => exact Iff.rfl
  | cons c cs ih => exact and_congr_right fun _ => ih

theorem Follows.leads (h : t.Follows start (left ++ c :: right)) :
    t.Leads start left (some c) := by
  induction left generalizing start with
  | nil => exact h.1
  | cons b left ih => exact ⟨h.1, ih h.2⟩

/-- What a finite chain leads past is a front of it. -/
theorem Follows.exists_eq_append (h : t.Follows start ks) (hc : t.Leads start left (some c)) :
    ∃ right, ks = left ++ c :: right := by
  induction left generalizing start ks with
  | nil =>
    obtain rfl : start = some c := hc
    cases ks with
    | nil => cases h
    | cons b ks =>
      obtain rfl := Option.some.inj h.1
      exact ⟨ks, rfl⟩
  | cons b left ih =>
    obtain ⟨rfl, hc⟩ := hc
    cases ks with
    | nil => cases h
    | cons e ks =>
      obtain rfl := Option.some.inj h.1
      obtain ⟨right, rfl⟩ := ih h.2 hc
      exact ⟨right, rfl⟩

theorem HasKids.onChain (h : t.HasKids p (left ++ c :: right)) : t.OnChain p left c :=
  h.follows.leads

theorem HasKids.reached (h : t.HasKids p ks) (hp : t.Reached p) (hc : c ∈ ks) : t.Reached c := by
  obtain ⟨left, right, rfl⟩ := List.append_of_mem hc
  exact hp.chain h.onChain

/-! ## What a defect says -/

/-- What the defect says of reached nodes is so. -/
def Shows (t : Tree) : Defect → Prop
  | .outside x => t.size ≤ x.index ∧ ∃ p left, t.Reached p ∧ t.OnChain p left x
  | .repeated x => x = .root ∧
    ∃ p left, t.Reached p ∧ t.OnChain p left .root ∧ t.parent? .root = some p
  | .strayParent c p found => t.Reached p ∧ (∃ left, t.OnChain p left c) ∧
    ∃ n, t.node? c = some n ∧ n.parent = found ∧ found ≠ some p
  | .brokenSiblings x => ∃ n, t.node? x = some n ∧
    ((∃ p left, t.Reached p ∧ t.OnChain p left x ∧ n.prevSibling ≠ left.getLast?) ∨
      (t.Reached x ∧ ∃ cs, t.Follows (t.firstChild? x) cs ∧ n.lastChild ≠ cs.getLast?))

/-- What is wrong with a child that is reached, if of marked nodes only the document can be
one. -/
theorem shows_of_childDefect? (hid : t.Reached id) (hc : t.OnChain id left c)
    (hmarked : t.parent? c = some id → seen[c.index]? = some true → c = .root)
    (h : t.childDefect? seen id left.getLast? c = some d) : t.Shows d := by
  unfold childDefect? at h
  cases hn : t.node? c with
  | none =>
    simp only [hn, Option.some.injEq] at h
    rw [← h]
    exact ⟨node?_eq_none_iff.1 hn, id, left, hid, hc⟩
  | some n =>
    simp only [hn] at h
    split_ifs at h with hparent hprev hseen
    · rw [← Option.some.inj h]
      exact ⟨hid, ⟨left, hc⟩, n, hn, rfl, hparent⟩
    · rw [← Option.some.inj h]
      exact ⟨n, hn, Or.inl ⟨id, left, hid, hc, hprev⟩⟩
    · have hparent' : t.parent? c = some id := by
        rw [parent?, hn, Option.bind_some, not_not.1 hparent]
      obtain rfl := hmarked hparent' hseen
      rw [← Option.some.inj h]
      exact ⟨rfl, id, left, hid, hc, hparent'⟩

/-- A defect of a child list is that of one child, or the list ends elsewhere than its parent
says. -/
theorem Scans.cases_of_error (h : t.Scans seen id left.getLast? here (.error d))
    (hleft : t.Leads (t.firstChild? id) left here) :
    (∃ left c, t.OnChain id left c ∧ t.childDefect? seen id left.getLast? c = some d) ∨
      (d = .brokenSiblings id ∧
        ∃ cs, t.Follows (t.firstChild? id) cs ∧ t.lastChild? id ≠ cs.getLast?) := by
  generalize hbefore : left.getLast? = before at h
  generalize hr : Except.error d = r at h
  induction h generalizing left with
  | last => cases hr
  | wrongLast hlast =>
    cases hr
    exact Or.inr ⟨rfl, left, leads_none_iff.1 hleft, hbefore ▸ hlast⟩
  | wrongChild hc =>
    cases hr
    exact Or.inl ⟨left, _, hleft, hbefore ▸ hc⟩
  | @child before c r _ _ ih =>
    cases r with
    | ok => cases hr
    | error => exact ih hleft.concat List.getLast?_concat hr

/-- A child list that is scanned to its end is linked, and none of its nodes was marked. -/
theorem Scans.hasKids (h : t.Scans seen id none (t.firstChild? id) (.ok cs)) :
    t.HasKids id cs ∧ ∀ c ∈ cs, seen[c.index]? ≠ some true := by
  have hscanned := (t.scans_children seen id).unique h
  unfold scanned at hscanned
  split at hscanned
  · cases hscanned
  · next last hcheck =>
    split at hscanned
    · next hlast =>
      obtain rfl := Except.ok.inj hscanned
      refine ⟨hasKids_of_checkChildren (hlast ▸ hcheck), fun c hc => ?_⟩
      obtain ⟨left, right, hsplit⟩ := List.append_of_mem hc
      exact ((checkChildren_eq_ok_iff.1 hcheck).1 left c right hsplit).2.2
    · cases hscanned

/-! ## The states of an examination -/

/-- The examination of the attached nodes comes to the state in which the nodes in `seen` are
marked and those in `pending` are still to be examined. -/
inductive ComesTo (t : Tree) : (seen : Array Bool) → (pending : List NodeId) → Prop where
  | start : ComesTo t (Array.replicate t.size false) [.root]
  | node {seen : Array Bool} {id : NodeId} {rest cs : List NodeId}
    (hcome : ComesTo t seen (id :: rest)) (h : seen[id.index]? = some false)
    (hscan : t.Scans (seen.set! id.index true) id none (t.firstChild? id) (.ok cs)) :
    ComesTo t (seen.set! id.index true) (cs.reverse ++ rest)

/-- From each of these states the examination goes on to its one answer. -/
theorem ComesTo.defectFrom?_eq (h : t.ComesTo seen pending) :
    t.defectFrom? seen pending = t.defect? := by
  induction h with
  | start => rfl
  | @node seen id rest cs _ hseen hscan ih =>
    rw [← ih]
    exact (examines_iff.1 (.node hseen hscan (examines_iff.2 rfl))).symm

/-- What is known in each of these states.  A node that is marked or pending names a marked
parent, unless it is the document; so a node whose parent is not marked is neither. -/
structure Examining (t : Tree) (seen : Array Bool) (pending : List NodeId) : Prop where
  size : seen.size = t.size
  unmarked : ∀ x ∈ pending, seen[x.index]? = some false
  nodup : pending.Nodup
  reached : ∀ x ∈ pending, t.Reached x
  /-- The document is examined first. -/
  root : seen[NodeId.root.index]? = some true ∨ pending = [.root]
  parent : ∀ x : NodeId, seen[x.index]? = some true ∨ x ∈ pending → x ≠ .root →
    ∃ p : NodeId, t.parent? x = some p ∧ seen[p.index]? = some true

namespace Examining

theorem initial (t : Tree) : t.Examining (Array.replicate t.size false) [.root] where
  size := Array.size_replicate
  unmarked := by
    intro x hx
    rw [List.mem_singleton.1 hx, Array.getElem?_replicate, NodeId.index_root, if_pos t.size_pos]
  nodup := List.nodup_singleton _
  reached := by
    intro x hx
    rw [List.mem_singleton.1 hx]
    exact .root
  root := Or.inr rfl
  parent := by
    rintro x (hx | hx) hne
    · rw [Array.getElem?_replicate] at hx
      split at hx <;> simp at hx
    · exact absurd (List.mem_singleton.1 hx) hne

/-- A node whose parent is the next one to be examined is neither marked nor pending, unless
it is the document. -/
theorem eq_root (h : t.Examining seen (id :: rest)) (hc : t.parent? c = some id)
    (hold : seen[c.index]? = some true ∨ c ∈ id :: rest) : c = .root := by
  by_contra hne
  obtain ⟨p, hp, hseen⟩ := h.parent c hold hne
  obtain rfl := Option.some.inj (hp.symm.trans hc)
  rw [h.unmarked p List.mem_cons_self] at hseen
  cases hseen

/-- The document is not among the nodes behind the next one. -/
theorem root_not_mem (h : t.Examining seen (id :: rest)) : .root ∉ rest := by
  intro hmem
  rcases h.root with hroot | hroot
  · rw [h.unmarked .root (List.mem_cons_of_mem _ hmem)] at hroot
    cases hroot
  · rw [(List.cons.inj hroot).2] at hmem
    exact absurd hmem List.not_mem_nil

theorem mark_iff (h : t.Examining seen (id :: rest)) (x : NodeId) :
    (seen.set! id.index true)[x.index]? = some true ↔ seen[x.index]? = some true ∨ x = id := by
  rw [getElem?_set!_eq_some_true (h.unmarked id List.mem_cons_self), NodeId.index_inj]

theorem marked_or_mem (h : t.Examining seen (id :: rest))
    (hx : (seen.set! id.index true)[x.index]? = some true) :
    seen[x.index]? = some true ∨ x ∈ id :: rest := by
  rcases (h.mark_iff x).1 hx with hx | rfl
  · exact Or.inl hx
  · exact Or.inr List.mem_cons_self

/-- A marked child of the node that is being examined is the document. -/
theorem eq_root_of_marked (h : t.Examining seen (id :: rest)) (hc : t.parent? c = some id)
    (hmarked : (seen.set! id.index true)[c.index]? = some true) : c = .root :=
  h.eq_root hc (h.marked_or_mem hmarked)

/-- Examining a node whose children were not marked. -/
theorem step (h : t.Examining seen (id :: rest)) (hks : t.HasKids id cs)
    (hunseen : ∀ c ∈ cs, (seen.set! id.index true)[c.index]? ≠ some true) :
    t.Examining (seen.set! id.index true) (cs.reverse ++ rest) := by
  have hself : (seen.set! id.index true)[id.index]? = some true := (h.mark_iff id).2 (Or.inr rfl)
  have hsize : (seen.set! id.index true).size = t.size :=
    Array.size_setIfInBounds.trans h.size
  obtain ⟨hidrest, hnodup⟩ := List.nodup_cons.1 h.nodup
  refine ⟨hsize, fun x hx => ?_, ?_, fun x hx => ?_, Or.inl ?_, fun x hx hne => ?_⟩
  · rcases List.mem_append.1 hx with hx | hx
    · have hc := List.mem_reverse.1 hx
      have hlt : x.index < (seen.set! id.index true).size := hsize.symm ▸ hks.index_lt hc
      have hfalse := hunseen x hc
      rw [Array.getElem?_eq_getElem hlt] at hfalse ⊢
      simpa using hfalse
    · refine getElem?_set!_eq_some_false.2 ⟨h.unmarked x (List.mem_cons_of_mem _ hx), ?_⟩
      intro hxid
      exact hidrest (NodeId.index_inj.1 hxid ▸ hx)
  · refine List.nodup_append.2 ⟨List.nodup_reverse.2 hks.nodup, hnodup, ?_⟩
    rintro x hx y hy rfl
    -- a child that was pending would be the document
    have hroot := h.eq_root (hks.parent? (List.mem_reverse.1 hx))
      (Or.inr (List.mem_cons_of_mem _ hy))
    exact h.root_not_mem (hroot ▸ hy)
  · rcases List.mem_append.1 hx with hx | hx
    · exact hks.reached (h.reached id List.mem_cons_self) (List.mem_reverse.1 hx)
    · exact h.reached x (List.mem_cons_of_mem _ hx)
  · refine (h.mark_iff .root).2 (h.root.imp_right fun hpending => ?_)
    exact (List.cons.inj hpending).1.symm
  · have hold : ∀ hx : seen[x.index]? = some true ∨ x ∈ id :: rest,
        ∃ p : NodeId, t.parent? x = some p ∧ (seen.set! id.index true)[p.index]? = some true := by
      intro hx
      obtain ⟨p, hp, hseen⟩ := h.parent x hx hne
      exact ⟨p, hp, (h.mark_iff p).2 (Or.inl hseen)⟩
    rcases hx with hx | hx
    · exact hold (h.marked_or_mem hx)
    · rcases List.mem_append.1 hx with hx | hx
      · exact ⟨id, hks.parent? (List.mem_reverse.1 hx), hself⟩
      · exact hold (Or.inr (List.mem_cons_of_mem _ hx))

end Examining

theorem ComesTo.examining (h : t.ComesTo seen pending) : t.Examining seen pending := by
  induction h with
  | start => exact .initial t
  | node _ _ hscan ih => exact ih.step hscan.hasKids.1 hscan.hasKids.2

/-- A defect that is met in a child list shows. -/
theorem ComesTo.shows_of_scans (h : t.ComesTo seen (id :: rest))
    (hscan : t.Scans (seen.set! id.index true) id none (t.firstChild? id) (.error d)) :
    t.Shows d := by
  have hx := h.examining
  have hid := hx.reached id List.mem_cons_self
  have hlt : id.index < t.size :=
    hx.size ▸ (Array.getElem?_eq_some_iff.1 (hx.unmarked id List.mem_cons_self)).1
  obtain ⟨n, hn⟩ := exists_node?_iff.2 hlt
  rcases @Scans.cases_of_error t _ id _ [] d hscan rfl with
    ⟨left, c, hc, hdefect⟩ | ⟨rfl, cs, hcs, hlast⟩
  · exact shows_of_childDefect? hid hc (fun hparent => hx.eq_root_of_marked hparent) hdefect
  · refine ⟨n, hn, Or.inr ⟨hid, cs, hcs, ?_⟩⟩
    rwa [lastChild?, hn] at hlast

/-- Every defect that is found is there. -/
theorem shows_of_defect? (h : t.defect? = some d) : t.Shows d := by
  have hrun : ∀ {seen : Array Bool} {pending : List NodeId} {o : Option Defect},
      t.Examines seen pending o → t.ComesTo seen pending → o = some d → t.Shows d := by
    intro seen pending o hexam
    induction hexam with
    | nil => exact fun _ ho => nomatch ho
    | outside hseen =>
      intro hcome
      rw [hcome.examining.unmarked _ List.mem_cons_self] at hseen
      cases hseen
    | repeated hseen =>
      intro hcome
      rw [hcome.examining.unmarked _ List.mem_cons_self] at hseen
      cases hseen
    | wrongChildren _ hscan =>
      intro hcome ho
      cases ho
      exact hcome.shows_of_scans hscan
    | node hseen hscan _ ih => exact fun hcome => ih (hcome.node hseen hscan)
  exact hrun (examines_iff.2 h) .start rfl

/-- Whatever the links of a row are, a defect that is found is there.  In no state that the
examination comes to is the node that comes next marked already: only at a child, and only at
the document, can it be seen that a node is met a second time. -/
theorem defect?_shows (t : Tree) :
    (∀ d, t.defect? = some d → t.Shows d) ∧
      ∀ seen id rest, t.ComesTo seen (id :: rest) →
        t.defectFrom? seen (id :: rest) = t.defect? ∧ seen[id.index]? = some false :=
  ⟨fun _ => shows_of_defect?, fun _ _ _ h =>
    ⟨h.defectFrom?_eq, h.examining.unmarked _ List.mem_cons_self⟩⟩

/-- A document that is the child of its own child. -/
def circular : Tree where
  nodes := #[
    ⟨.document, some (.ofNat 1), some (.ofNat 1), some (.ofNat 1), none, none⟩,
    ⟨.element (.html "div") [], some .root, some .root, some .root, none, none⟩]
  nodes_nonempty := by decide

theorem defect?_shows_circular :
    circular.defect? = some (.repeated .root) ∧ circular.Shows (.repeated .root) ∧
      circular.ComesTo #[true, false] [.ofNat 1] ∧
      circular.defectFrom? #[true, false] [.ofNat 1] = some (.repeated .root) := by
  have hdefect : circular.defect? = some (.repeated .root) := by decide +kernel
  have hchild : circular.childDefect? #[true, false] .root none (.ofNat 1) = none := by decide
  have hscan : circular.Scans #[true, false] .root none (some (.ofNat 1)) (.ok [.ofNat 1]) :=
    .child hchild (.last rfl)
  have hcome : circular.ComesTo #[true, false] [.ofNat 1] := .node .start rfl hscan
  obtain ⟨hshows, hstates⟩ := defect?_shows circular
  exact ⟨hdefect, hshows _ hdefect, hcome, (hstates _ _ _ hcome).1.trans hdefect⟩

/-! ## Well linked rows -/

/-- Where links lead from a node to a number, it stands among the children. -/
theorem HasKids.eq_append_of_onChain (h : t.HasKids p ks) (hc : t.OnChain p left c) :
    ∃ right, ks = left ++ c :: right :=
  h.follows.exists_eq_append hc

namespace WellLinked

/-- Where links lead from reached nodes, it stands below the document. -/
theorem below_of_onChain (h : t.WellLinked) (hp : t.Reached p) (hc : t.OnChain p left c) :
    t.Below .root c := by
  have hmem : ∀ {q c : NodeId} {left : List NodeId}, t.OnChain q left c → c ∈ t.children q := by
    intro q c left hc
    obtain ⟨right, hks⟩ := (h.kids q).eq_append_of_onChain hc
    rw [hks]
    exact List.mem_append_right _ List.mem_cons_self
  induction hp generalizing c left with
  | root => exact .single (hmem hc)
  | chain _ hq ih => exact (ih hq).tail (hmem hc)

/-- The only defect that a well linked row can have is that the document stands below
itself. -/
theorem defect?_eq_none_or_repeated (h : t.WellLinked) :
    t.defect? = none ∨ (t.defect? = some (.repeated .root) ∧ t.Below .root .root) := by
  cases hd : t.defect? with
  | none => exact Or.inl rfl
  | some d =>
    have hshows := shows_of_defect? hd
    cases d with
    | outside x =>
      obtain ⟨hout, p, left, -, hc⟩ := hshows
      obtain ⟨right, hks⟩ := (h.kids p).eq_append_of_onChain hc
      have := (h.kids p).index_lt (c := x) (by simp [hks])
      omega
    | repeated x =>
      obtain ⟨rfl, p, left, hp, hc, -⟩ := hshows
      exact Or.inr ⟨rfl, h.below_of_onChain hp hc⟩
    | strayParent c p found =>
      obtain ⟨-, ⟨left, hc⟩, n, hn, rfl, hne⟩ := hshows
      obtain ⟨right, hks⟩ := (h.kids p).eq_append_of_onChain hc
      have hparent := (h.kids p).parent? (c := c) (by simp [hks])
      rw [Tree.parent?, hn] at hparent
      exact absurd hparent hne
    | brokenSiblings x =>
      obtain ⟨n, hn, ⟨p, left, -, hc, hne⟩ | ⟨-, cs, hcs, hne⟩⟩ := hshows
      · obtain ⟨right, hks⟩ := (h.kids p).eq_append_of_onChain hc
        have hprev := (h.kids p).prevSibling? hks
        rw [Tree.prevSibling?, hn] at hprev
        exact absurd hprev hne
      · have hlast := (h.kids x).last
        rw [(h.kids x).follows.eq hcs, lastChild?, hn] at hlast
        exact absurd hlast hne

end WellLinked

end Tree

end DocTree
