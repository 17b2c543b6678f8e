import DocTree.Proofs.Runs
set_option autoImplicit false

/-!
# ChildLists: moving a node, seen as an operation on child lists

In a row that calls have left behind, every child list reads the same forwards and backwards,
and the three ways of moving a node are operations on these lists: the node leaves the list
it stands in and enters the list of its new parent, at the end or before a sibling
(`childLists_of_runs`).  This does not ask where the node stood before: it may be a child of
its new parent already, or that parent itself, or one of its ancestors.

Before a sibling that has no parent there is no place.  A node that is put there leaves the
list it stands in and enters none, so such a call does nothing only if the node stood nowhere
(`insertBefore_placeless`).
-/

namespace DocTree

namespace Tree

variable {t u : Tree} {p c sib : NodeId} {ks left right : List NodeId}

/-! ## Reading backwards -/

/-- The chain of previous siblings that begins at `start` is exactly the given list. -/
def Precedes (t : Tree) : Option NodeId → List NodeId → Prop
  | start, [] => start = none
  | start, c :: cs => start = some c ∧ t.Precedes (t.prevSibling? c) cs

theorem HasKids.precedes (h : t.HasKids p ks) : t.Precedes (t.lastChild? p) ks.reverse := by
  have hgen : ∀ left right, ks = left ++ right → t.Precedes left.getLast? left.reverse := by
    intro left
    induction left using List.reverseRecOn with
    | nil => exact fun _ _ => rfl
    | append_singleton left c ih =>
      intro right hsplit
      rw [List.append_assoc, List.singleton_append] at hsplit
      rw [List.getLast?_concat, List.reverse_concat]
      refine ⟨rfl, ?_⟩
      rw [h.prevSibling? hsplit]
      exact ih (c :: right) hsplit
  rw [h.last]
  exact hgen ks [] (List.append_nil ks).symm

/-- Every child list is read from its first child along the next siblings, and in reverse
from its last child along the previous ones. -/
structure ReadsBothWays (t : Tree) : Prop where
  forwards : ∀ q, t.Follows (t.firstChild? q) (t.children q)
  backwards : ∀ q, t.Precedes (t.lastChild? q) (t.children q).reverse

theorem WellLinked.readsBothWays (h : t.WellLinked) : t.ReadsBothWays where
  forwards := fun q => (h.kids q).follows
  backwards := fun q => (h.kids q).precedes

/-! ## Moving a node -/

/-- `u` is `t` after `c` was moved: now `c` has the parent `home` and every node `q` the
children `kids q`, while all other parents and all payloads are those of `t`. -/
structure Rehomed (t : Tree) (c : NodeId) (home : Option NodeId) (kids : NodeId → List NodeId)
    (u : Tree) : Prop where
  size : u.size = t.size
  payload : ∀ x, u.payload? x = t.payload? x
  home : u.parent? c = home
  parent : ∀ x, x ≠ c → u.parent? x = t.parent? x
  kids : ∀ q, u.children q = kids q
  reads : u.ReadsBothWays

namespace WellLinked

/-- A child list names no node twice. -/
theorem erase_children (h : t.WellLinked) (c q : NodeId) :
    (t.children q).erase c = (t.children q).filter (· != c) :=
  (h.kids q).nodup.erase_eq_filter c

theorem rehomed_takenOut (h : t.WellLinked) (hu : t.TakenOut c u) :
    t.Rehomed c none (fun q => (t.children q).filter (· != c)) u where
  size := hu.size
  payload := hu.payload
  home := hu.loose.parent
  parent := hu.parent
  kids := fun q => (h.children_takenOut hu q).trans (h.erase_children c q)
  reads := (h.takenOut hu).readsBothWays

theorem rehomed_movedTo (h : t.WellLinked) (hu : t.MovedTo c p left right u)
    (hsplit : (t.children p).erase c = left ++ right) :
    t.Rehomed c (some p)
      (fun q => if q = p then left ++ c :: right else (t.children q).filter (· != c)) u where
  size := hu.size
  payload := hu.payload
  home := hu.parent_self
  parent := hu.parent
  kids := by
    intro q
    rw [h.children_movedTo hu, h.erase_children]
  reads := (h.movedTo hu hsplit).readsBothWays

theorem exists_detach (h : t.WellLinked) (hc : c.index < t.size) :
    ∃ u, Edit.detach c t = .ok () u ∧
      t.Rehomed c none (fun q => (t.children q).filter (· != c)) u := by
  obtain ⟨u, hrun, hu⟩ := Edit.exists_detach_of_placed (h.placed c) hc
  exact ⟨u, hrun, h.rehomed_takenOut hu⟩

theorem exists_append (h : t.WellLinked) (hp : p.index < t.size) (hc : c.index < t.size) :
    ∃ u, Edit.append p c t = .ok () u ∧
      t.Rehomed c (some p) (fun q => if q = p then (t.children p).filter (· != c) ++ [c]
        else (t.children q).filter (· != c)) u := by
  obtain ⟨u, hrun, hu⟩ := Edit.exists_append_of_placed (h.placed c) hc hp (h.kids p)
  rw [h.erase_children] at hu
  exact ⟨u, hrun, h.rehomed_movedTo hu (by rw [h.erase_children, List.append_nil])⟩

theorem exists_insertBefore (h : t.WellLinked) (hc : c.index < t.size) (hne : sib ≠ c)
    (hparent : t.parent? sib = some p) :
    ∃ u left right, Edit.insertBefore sib c t = .ok () u ∧
      (t.children p).filter (· != c) = left ++ sib :: right ∧
      t.Rehomed c (some p) (fun q => if q = p then left ++ c :: sib :: right
        else (t.children q).filter (· != c)) u := by
  have hmem : sib ∈ (t.children p).erase c :=
    (List.mem_erase_of_ne hne).2 (h.home sib p hparent)
  obtain ⟨left, right, hsplit⟩ := List.append_of_mem hmem
  obtain ⟨u, hrun, hu⟩ := Edit.exists_insertBefore_of_placed (h.placed c) hc (h.kids p) hsplit
  rw [← h.erase_children]
  exact ⟨u, left, right, hrun, hsplit, h.rehomed_movedTo hu hsplit⟩

/-- A node is taken out and nothing else, exactly if taking it out leaves the row as it is. -/
theorem detach_eq_ok_self_iff (h : t.WellLinked) (hc : c.index < t.size) :
    Edit.detach c t = .ok () t ↔ t.parent? c = none := by
  constructor
  · intro hrun
    obtain ⟨u, hu, hout⟩ := h.exists_detach hc
    obtain rfl : t = u := by
      rw [hrun] at hu
      injection hu
    exact hout.home
  · exact fun hparent => Edit.detach_eq_ok_of_loose (h.loose c hparent) hc

/-- To put a node before a sibling without a parent is to take it out. -/
theorem insertBefore_eq_detach (h : t.WellLinked) (hc : c.index < t.size)
    (hsib : sib.index < t.size) (hparent : t.parent? sib = none) :
    Edit.insertBefore sib c t = Edit.detach c t := by
  rcases eq_or_ne sib c with rfl | hne
  · rw [Edit.insertBefore_self, (h.detach_eq_ok_self_iff hc).2 hparent]
  · obtain ⟨u, hrun, hout⟩ := h.exists_detach hc
    rw [← hout.size] at hsib
    rw [← hout.parent sib hne] at hparent
    rw [hrun, Edit.insertBefore_eq_ok_of_parent?_eq_none hrun hne hsib hparent]

end WellLinked

end Tree

/-! ## After any calls -/

/-- After any calls with existing numbers, appending a node, putting it before a sibling that
has a parent, and taking it out succeed and do to the child lists what their names say; every
other list only loses the node. -/
theorem childLists_of_runs (calls : List Call) (log : Log) (s : Tree × Log)
    (hrun : Runs calls (Tree.new, log) s) (hsize : s.1.size ≤ NodeId.bound) :
    s.1.ReadsBothWays ∧
    (∀ p c : NodeId, p.index < s.1.size → c.index < s.1.size →
      ∃ u, Edit.append p c s.1 = .ok () u ∧
        s.1.Rehomed c (some p) (fun q => if q = p then (s.1.children p).filter (· != c) ++ [c]
          else (s.1.children q).filter (· != c)) u) ∧
    (∀ sib c p : NodeId, c.index < s.1.size → sib ≠ c → s.1.parent? sib = some p →
      ∃ u left right, Edit.insertBefore sib c s.1 = .ok () u ∧
        (s.1.children p).filter (· != c) = left ++ sib :: right ∧
        s.1.Rehomed c (some p) (fun q => if q = p then left ++ c :: sib :: right
          else (s.1.children q).filter (· != c)) u) ∧
    (∀ c : NodeId, c.index < s.1.size →
      ∃ u, Edit.detach c s.1 = .ok () u ∧
        s.1.Rehomed c none (fun q => (s.1.children q).filter (· != c)) u) := by
  have hlinked : s.1.WellLinked :=
    (@sound_of_runs False calls _ s hrun (fun h => h.elim) sound_new hsize).linked
  exact ⟨hlinked.readsBothWays, fun p c hp hc => hlinked.exists_append hp hc,
    fun sib c p hc hne hparent => hlinked.exists_insertBefore hc hne hparent,
    fun c hc => hlinked.exists_detach hc⟩

/-- A list is put below its own item, and before it, which makes it its own parent. -/
theorem childLists_of_runs_nested :
    ∃ s, Runs [.createHtml "ul", .createHtml "li", .createText "a", .append .root (.ofNat 1),
        .append (.ofNat 1) (.ofNat 2), .append (.ofNat 2) (.ofNat 3)] (Tree.new, #[]) s ∧
      s.1.size ≤ NodeId.bound ∧ s.1.parent? (.ofNat 2) = some (.ofNat 1) ∧
      (∃ u, Edit.append (.ofNat 2) (.ofNat 1) s.1 = .ok () u ∧ u.children .root = [] ∧
        u.children (.ofNat 2) = [.ofNat 3, .ofNat 1]) ∧
      (∃ u, Edit.insertBefore (.ofNat 2) (.ofNat 1) s.1 = .ok () u ∧
        u.parent? (.ofNat 1) = some (.ofNat 1) ∧
        u.children (.ofNat 1) = [.ofNat 1, .ofNat 2]) ∧
      ∃ u, Edit.detach (.ofNat 2) s.1 = .ok () u ∧ u.children (.ofNat 1) = [] ∧
        u.children (.ofNat 2) = [.ofNat 3] := by
  let calls : List Call := [.createHtml "ul", .createHtml "li", .createText "a",
    .append .root (.ofNat 1), .append (.ofNat 1) (.ofNat 2), .append (.ofNat 2) (.ofNat 3)]
  let s := calls.foldl (fun s c => c.after s) (Tree.new, #[])
  have hrun : Runs calls (Tree.new, #[]) s :=
    .cons (by decide) (.cons (by decide) (.cons (by decide) (.cons (by decide)
      (.cons (by decide) (.cons (by decide) (.nil _))))))
  have hsize : s.1.size ≤ NodeId.bound := by decide +kernel
  have hparent : s.1.parent? (.ofNat 2) = some (.ofNat 1) := by decide +kernel
  have hlists : s.1.children .root = [.ofNat 1] ∧ s.1.children (.ofNat 1) = [.ofNat 2] ∧
      s.1.children (.ofNat 2) = [.ofNat 3] := by decide +kernel
  obtain ⟨-, happend, hinsert, hdetach⟩ := childLists_of_runs calls #[] s hrun hsize
  refine ⟨s, hrun, hsize, hparent, ?_, ?_, ?_⟩
  · obtain ⟨u, hu, hmoved⟩ := happend (.ofNat 2) (.ofNat 1) (by decide +kernel)
      (by decide +kernel)
    refine ⟨u, hu, ?_, ?_⟩
    · rw [hmoved.kids, hlists.1]
      decide
    · rw [hmoved.kids, hlists.2.2]
      decide
  · obtain ⟨u, left, right, hu, hsplit, hmoved⟩ := hinsert (.ofNat 2) (.ofNat 1) (.ofNat 1)
      (by decide +kernel) (by decide) hparent
    have hends : left = [] ∧ right = [] := by
      have hlist : (s.1.children (.ofNat 1)).filter (· != .ofNat 1) = [.ofNat 2] := by
        rw [hlists.2.1]
        decide
      rw [hlist] at hsplit
      cases left <;> simp_all
    refine ⟨u, hu, hmoved.home, ?_⟩
    rw [hmoved.kids, if_pos rfl, hends.1, hends.2, List.nil_append]
  · obtain ⟨u, hu, hout⟩ := hdetach (.ofNat 2) (by decide +kernel)
    refine ⟨u, hu, ?_, ?_⟩
    · rw [hout.kids, hlists.2.1]
      decide
    · rw [hout.kids, hlists.2.2]
      decide

/-! ## Before a sibling without a parent -/

/-- After any calls with existing numbers, a node that is put before a sibling without a parent
is taken out of its place and put nowhere.  Links and payloads all stay as they are exactly if
the node had no parent itself. -/
theorem insertBefore_placeless (calls : List Call) (log : Log) (s : Tree × Log)
    (hrun : Runs calls (Tree.new, log) s) (hsize : s.1.size ≤ NodeId.bound) (sib c : NodeId)
    (hsib : sib.index < s.1.size) (hc : c.index < s.1.size) (hparent : s.1.parent? sib = none) :
    ∃ u, Edit.insertBefore sib c s.1 = .ok () u ∧
      Edit.place (.node c) (.before sib) s.1 = .ok () u ∧
      s.1.Rehomed c none (fun q => (s.1.children q).filter (· != c)) u ∧
      (u = s.1 ↔ s.1.parent? c = none) := by
  have hlinked : s.1.WellLinked :=
    (@sound_of_runs False calls _ s hrun (fun h => h.elim) sound_new hsize).linked
  obtain ⟨u, hdetach, hout⟩ := hlinked.exists_detach hc
  have hinsert : Edit.insertBefore sib c s.1 = .ok () u :=
    (hlinked.insertBefore_eq_detach hc hsib hparent).trans hdetach
  refine ⟨u, hinsert, hinsert, hout, ?_⟩
  rw [← hlinked.detach_eq_ok_self_iff hc, hdetach]
  exact ⟨fun hu => by rw [hu], fun hu => by injection hu⟩

/-- The calls that make an element of the document and one that stands nowhere. -/
def callsForPlaceless : List Call :=
  [.createHtml "div", .append .root (.ofNat 1), .createHtml "p"]

/-- What these calls leave. -/
def placelessRow : Tree × Log := callsForPlaceless.foldl (fun s c => c.after s) (Tree.new, #[])

theorem runs_callsForPlaceless : Runs callsForPlaceless (Tree.new, #[]) placelessRow :=
  .cons (by decide) (.cons (by decide) (.cons (by decide) (.nil _)))

theorem placelessRow_links : placelessRow.1.size = 3 ∧
    placelessRow.1.parent? (.ofNat 1) = some .root ∧ placelessRow.1.parent? (.ofNat 2) = none ∧
    placelessRow.1.children .root = [.ofNat 1] := by
  decide +kernel

theorem insertBefore_placeless_taken :
    ∃ u, Edit.insertBefore (.ofNat 2) (.ofNat 1) placelessRow.1 = .ok () u ∧
      u.children .root = [] ∧ u ≠ placelessRow.1 := by
  obtain ⟨hsize, hplaced, hloose, hkids⟩ := placelessRow_links
  obtain ⟨u, hrun, -, hout, hiff⟩ := insertBefore_placeless callsForPlaceless #[] placelessRow
    runs_callsForPlaceless (by rw [hsize]; decide) (.ofNat 2) (.ofNat 1) (by rw [hsize]; decide)
    (by rw [hsize]; decide) hloose
  refine ⟨u, hrun, ?_, fun hu => ?_⟩
  · rw [hout.kids, hkids]
    decide
  · rw [hiff.1 hu] at hplaced
    cases hplaced

/-- An element of the document that is put before a sibling without a parent is lost to the
document. -/
theorem not_insertBefore_placeless_still :
    ¬ ∀ (calls : List Call) (log : Log) (s : Tree × Log), Runs calls (Tree.new, log) s →
      s.1.size ≤ NodeId.bound → ∀ sib c : NodeId, sib.index < s.1.size → c.index < s.1.size →
      s.1.parent? sib = none →
      ∀ x, (Edit.leave (Edit.insertBefore sib c) s.1).node? x = s.1.node? x := by
  intro h
  obtain ⟨hsize, -, hloose, -⟩ := placelessRow_links
  have hstill := h callsForPlaceless #[] placelessRow runs_callsForPlaceless
    (by rw [hsize]; decide) (.ofNat 2) (.ofNat 1) (by rw [hsize]; decide)
    (by rw [hsize]; decide) hloose .root
  exact absurd hstill (by decide +kernel)

end DocTree
