import DocTree.Proofs.Outside
set_option autoImplicit false

/-!
# TextPlacement: characters that are put somewhere

A spot names a gap between neighbouring children (`Tree.gap?`).  Characters that are put there
join the text that stands just before the gap, and if none stands there they get a node of their
own in the gap (`Tree.TextPut`).  To a reader who does not see where one text ends and the next
one begins this is the same: the characters have come to stand in the gap
(`inscribed_of_runs`).
-/

namespace DocTree

/-! ## Gaps -/

/-- A place between the children `left` and `right` of `parent`. -/
structure Gap where
  parent : NodeId
  left : List NodeId
  right : List NodeId
  deriving DecidableEq, Repr

/-- The node before which a spot is, or may be. -/
def Spot.sibling? : Spot → Option NodeId
  | .last _ => none
  | .before sibling => some sibling
  | .beside element _ => some element

namespace Tree

/-- The gap after all children of a node. -/
def gapAtEnd (t : Tree) (parent : NodeId) : Gap := ⟨parent, t.children parent, []⟩

/-- The gap just before a node, if it has a parent. -/
def gapBefore? (t : Tree) (sibling : NodeId) : Option Gap :=
  (t.parent? sibling).map fun parent =>
    ⟨parent, (t.children parent).takeWhile (· != sibling),
      (t.children parent).dropWhile (· != sibling)⟩

/-- The gap that a spot names; before a node without a parent there is none. -/
def gap? (t : Tree) : Spot → Option Gap
  | .last parent => some (t.gapAtEnd parent)
  | .before sibling => t.gapBefore? sibling
  | .beside element fallback => some ((t.gapBefore? element).getD (t.gapAtEnd fallback))

variable {t u : Tree} {spot : Spot} {g : Gap} {sib p : NodeId}

theorem gap?_beside_of_parent?_eq_none {element : NodeId} (h : t.parent? element = none)
    (fallback : NodeId) : t.gap? (.beside element fallback) = t.gap? (.last fallback) := by
  simp only [gap?, gapBefore?, h, Option.map_none, Option.getD_none]

theorem gap?_beside_of_parent? {element : NodeId} (h : t.parent? element = some p)
    (fallback : NodeId) : t.gap? (.beside element fallback) = t.gap? (.before element) := by
  simp only [gap?, gapBefore?, h, Option.map_some, Option.getD_some]

/-- How a piece is put into the gap that a spot names: behind the last child, or before a
sibling. -/
inductive Reaches (t : Tree) (spot : Spot) : Gap → Prop where
  | atEnd (p : NodeId) (hp : p ∈ spot.ids)
    (hplace : ∀ piece, Edit.place piece spot t = Edit.placeLast p piece t) :
    Reaches t spot ⟨p, t.children p, []⟩
  | before {sib p : NodeId} {left right : List NodeId} (hsib : spot.sibling? = some sib)
    (hparent : t.parent? sib = some p) (hsplit : t.children p = left ++ sib :: right)
    (hplace : ∀ piece, Edit.place piece spot t = Edit.placeBefore sib piece t) :
    Reaches t spot ⟨p, left, sib :: right⟩

/-- A child stands once among the children, so the gap before it is the one place before it. -/
theorem WellLinked.gapBefore?_of_split (h : t.WellLinked) {left right : List NodeId}
    (hsplit : t.children p = left ++ sib :: right) :
    t.gapBefore? sib = some ⟨p, left, sib :: right⟩ := by
  have hnodup : (left ++ sib :: right).Nodup := hsplit ▸ (h.kids p).nodup
  have hleft : ∀ x ∈ left, (x != sib) = true := fun x hx =>
    bne_iff_ne.2 fun hxs => List.disjoint_of_nodup_append hnodup (hxs ▸ hx) List.mem_cons_self
  unfold gapBefore?
  rw [((h.kids p).kid left sib right hsplit).1, Option.map_some, hsplit,
    List.takeWhile_append_of_pos hleft, List.dropWhile_append_of_pos hleft]
  simp

theorem WellLinked.gapBefore?_eq (h : t.WellLinked) (hparent : t.parent? sib = some p) :
    ∃ left right, t.gapBefore? sib = some ⟨p, left, sib :: right⟩ ∧
      t.children p = left ++ sib :: right := by
  obtain ⟨left, right, hsplit⟩ := List.append_of_mem (h.home sib p hparent)
  exact ⟨left, right, h.gapBefore?_of_split hsplit, hsplit⟩

theorem WellLinked.reaches (h : t.WellLinked) (hgap : t.gap? spot = some g) :
    t.Reaches spot g := by
  cases spot with
  | last p =>
    obtain rfl := Option.some.inj hgap
    exact .atEnd p List.mem_cons_self fun _ => rfl
  | before sib =>
    obtain ⟨p, hparent, -⟩ := Option.map_eq_some_iff.1 hgap
    obtain ⟨left, right, heq, hsplit⟩ := h.gapBefore?_eq hparent
    obtain rfl := Option.some.inj (heq.symm.trans hgap)
    exact .before rfl hparent hsplit fun _ => rfl
  | beside element fallback =>
    cases hparent : t.parent? element with
    | none =>
      rw [gap?_beside_of_parent?_eq_none hparent] at hgap
      obtain rfl := Option.some.inj hgap
      exact .atEnd fallback (List.mem_cons_of_mem _ List.mem_cons_self)
        fun piece => Edit.place_beside_of_parent?_eq_none hparent piece fallback
    | some p =>
      obtain ⟨left, right, heq, hsplit⟩ := h.gapBefore?_eq hparent
      rw [gap?_beside_of_parent? hparent] at hgap
      obtain rfl := Option.some.inj (heq.symm.trans hgap)
      exact .before rfl hparent hsplit
        fun piece => Edit.place_beside_of_parent? hparent piece fallback

theorem gap?_eq_none (hgap : t.gap? spot = none) :
    ∃ sib, spot = .before sib ∧ t.parent? sib = none := by
  cases spot with
  | last p => cases hgap
  | before sib => exact ⟨sib, rfl, Option.map_eq_none_iff.1 hgap⟩
  | beside element fallback => cases hgap

/-- Left and right of a gap stand all children of its parent. -/
theorem Reaches.children_eq (h : t.Reaches spot g) : t.children g.parent = g.left ++ g.right := by
  cases h with
  | atEnd p _ _ => exact (List.append_nil _).symm
  | before _ _ hsplit _ => exact hsplit

/-- A node that stands nowhere comes into the gap that its spot names. -/
theorem WellLinked.exists_place_node (h : t.WellLinked) {c : NodeId} (hloose : t.Loose c)
    (hc : c.index < t.size) (hspot : ∀ i ∈ spot.ids, i.index < t.size)
    (hgap : t.gap? spot = some g) :
    ∃ u, Edit.place (.node c) spot t = .ok () u ∧ t.MovedTo c g.parent g.left g.right u := by
  cases h.reaches hgap with
  | atEnd p hp hplace =>
    rw [hplace]
    exact Edit.exists_append_of_loose hloose hc (hspot p hp) (h.kids p)
  | before _ _ hsplit hplace =>
    rw [hplace]
    exact Edit.exists_insertBefore_of_loose hloose hc (hsplit ▸ h.kids _)

/-! ## Nodes that are made in a gap -/

theorem SameLinks.children (hu : t.SameLinks u) (h : t.WellLinked) (q : NodeId) :
    u.children q = t.children q :=
  (hu.hasKids (h.kids q)).children_eq

theorem payload?_create (t : Tree) (payload : Payload) (x : NodeId) :
    (t.create payload).2.payload? x =
      if x.index = t.size then some payload else t.payload? x := by
  unfold payload?
  rw [node?_create]
  split <;> rfl

/-- `u` is `t` with a node of this payload that was made and put into a gap. -/
def MadeIn (t : Tree) (g : Gap) (payload : Payload) (u : Tree) : Prop :=
  (t.create payload).2.MovedTo (t.create payload).1 g.parent g.left g.right u

namespace MadeIn

variable {payload : Payload} (hu : t.MadeIn g payload u) (h : t.WellLinked)
  (hsize : t.size < NodeId.bound)

include hu

theorem size_eq : u.size = t.size + 1 := (MovedTo.size hu).trans (t.size_create payload)

theorem payload?_eq (x : NodeId) :
    u.payload? x = if x.index = t.size then some payload else t.payload? x := by
  rw [MovedTo.payload hu, payload?_create]

include hsize

theorem parent?_eq {x : NodeId} (hx : x.index < t.size) : u.parent? x = t.parent? x := by
  have hne : x ≠ (t.create payload).1 := by
    rintro rfl
    rw [index_create hsize] at hx
    exact Nat.lt_irrefl _ hx
  exact (MovedTo.parent hu x hne).trans ((SameLinks.create t payload).parent x)

include h

theorem children_eq (q : NodeId) : u.children q =
    if q = g.parent then g.left ++ (t.create payload).1 :: g.right else t.children q := by
  rw [(h.create payload).children_movedTo hu,
    List.erase_of_not_mem ((loose_create hsize payload).not_mem ((h.create payload).kids q)),
    (SameLinks.create t payload).children h]

theorem wellLinked (hsplit : t.children g.parent = g.left ++ g.right) : u.WellLinked := by
  refine (h.create payload).movedTo hu ?_
  rw [List.erase_of_not_mem ((loose_create hsize payload).not_mem ((h.create payload).kids _)),
    (SameLinks.create t payload).children h, hsplit]

end MadeIn

/-! ## Where characters go -/

/-- The text that ends a list of nodes, with its characters. -/
def endText? (t : Tree) (ids : List NodeId) : Option (NodeId × String) :=
  ids.getLast?.bind fun last => (t.text? last).map fun content => (last, content)

/-- `u` is `t` after characters were put into a gap: behind those of the text just before it, or
into a node made for them. -/
inductive TextPut (t : Tree) (g : Gap) (content : String) : Tree → Prop where
  | joined {last : NodeId} {old : String} (hend : t.endText? g.left = some (last, old)) :
    TextPut t g content (t.modify last fun m => { m with payload := .text (old ++ content) })
  | made {u : Tree} (hend : t.endText? g.left = none)
    (hu : t.MadeIn g (.text content) u) : TextPut t g content u

theorem endText?_eq_some_iff {ids : List NodeId} {last : NodeId} {old : String} :
    t.endText? ids = some (last, old) ↔ ids.getLast? = some last ∧ t.text? last = some old := by
  simp only [endText?, Option.bind_eq_some_iff, Option.map_eq_some_iff, Prod.mk.injEq]
  constructor
  · rintro ⟨_, hlast, _, htext, rfl, rfl⟩
    exact ⟨hlast, htext⟩
  · rintro ⟨hlast, htext⟩
    exact ⟨last, hlast, old, htext, rfl, rfl⟩

theorem text?_eq_none_of_endText? {ids : List NodeId} {last : NodeId}
    (h : t.endText? ids = none) (hlast : ids.getLast? = some last) : t.text? last = none := by
  cases htext : t.text? last with
  | none => rfl
  | some old =>
    rw [endText?_eq_some_iff.2 ⟨hlast, htext⟩] at h
    cases h

theorem extendText_eq_ok {last : NodeId} {old : String} (htext : t.text? last = some old)
    (content : String) : Edit.extendText last old content t =
      .ok () (t.modify last fun m => { m with payload := .text (old ++ content) }) := by
  obtain ⟨payload, hpayload, -⟩ := Option.bind_eq_some_iff.1 htext
  exact Edit.change_eq_ok (index_lt_of_payload? hpayload) _

/-- Characters join the text that stands just before their gap. -/
theorem WellLinked.place_text_of_endText? (h : t.WellLinked) (hgap : t.gap? spot = some g)
    {last : NodeId} {old : String} (hend : t.endText? g.left = some (last, old))
    (content : String) : Edit.place (.text content) spot t =
      .ok () (t.modify last fun m => { m with payload := .text (old ++ content) }) := by
  obtain ⟨hlast, htext⟩ := endText?_eq_some_iff.1 hend
  cases h.reaches hgap with
  | atEnd p _ hplace =>
    rw [hplace]
    exact (Edit.appendText_of_text ((h.kids p).last.trans hlast) htext content).trans
      (extendText_eq_ok htext content)
  | @before sib q _ _ _ _ hsplit hplace =>
    have hbefore : Edit.textBefore? t sib = some (last, old) := by
      rw [Edit.textBefore?, (h.kids q).prevSibling? hsplit]
      exact hend
    rw [hplace, Edit.placeBefore_text_of_some hbefore, extendText_eq_ok htext]

/-- If no text stands there, they get a node. -/
theorem WellLinked.exists_place_text_made (h : t.WellLinked) (hsize : t.size < NodeId.bound)
    (hspot : ∀ i ∈ spot.ids, i.index < t.size) (hgap : t.gap? spot = some g)
    (hend : t.endText? g.left = none) (content : String) :
    ∃ u, Edit.place (.text content) spot t = .ok () u ∧ t.MadeIn g (.text content) u := by
  have hloose := loose_create hsize (.text content)
  have hmade := index_lt_create hsize (.text content) (Or.inr rfl)
  have hlinks := SameLinks.create t (.text content)
  cases h.reaches hgap with
  | atEnd p hp hplace =>
    obtain ⟨u, hrun, hu⟩ := Edit.exists_append_of_loose hloose hmade
      (index_lt_create hsize _ (Or.inl (hspot p hp))) (hlinks.hasKids (h.kids p))
    refine ⟨u, (hplace _).trans ((Edit.appendText_of_not_text (hspot p hp) (fun c hc => ?_)
      content).trans hrun), hu⟩
    exact ⟨h.index_lt_of_lastChild? hc,
      text?_eq_none_of_endText? hend ((h.kids p).last.symm.trans hc)⟩
  | @before sib q _ _ _ _ hsplit hplace =>
    have hbefore : Edit.textBefore? t sib = none := by
      rw [Edit.textBefore?, (h.kids q).prevSibling? hsplit]
      exact hend
    obtain ⟨u, hrun, hu⟩ := Edit.exists_insertBefore_of_loose hloose hmade
      (hlinks.hasKids (hsplit ▸ h.kids q))
    exact ⟨u, (hplace _).trans ((Edit.placeBefore_text_of_none hbefore content).trans hrun), hu⟩

/-- Characters come into the gap that their spot names. -/
theorem WellLinked.exists_place_text (h : t.WellLinked) (hsize : t.size < NodeId.bound)
    (hspot : ∀ i ∈ spot.ids, i.index < t.size) (hgap : t.gap? spot = some g) (content : String) :
    ∃ u, Edit.place (.text content) spot t = .ok () u ∧ t.TextPut g content u := by
  cases hend : t.endText? g.left with
  | some found => exact ⟨_, h.place_text_of_endText? hgap hend content, .joined hend⟩
  | none =>
    obtain ⟨u, hrun, hu⟩ := h.exists_place_text_made hsize hspot hgap hend content
    exact ⟨u, hrun, .made hend hu⟩

/-! ## What characters that are put into a gap change -/

theorem payload?_modify (t : Tree) (id : NodeId) (f : Payload → Payload) (x : NodeId) :
    (t.modify id fun m => { m with payload := f m.payload }).payload? x =
      if id = x then (t.payload? x).map f else t.payload? x := by
  unfold payload?
  rw [node?_modify]
  split
  · cases t.node? x <;> rfl
  · rfl

namespace TextPut

variable {content : String}

/-- No other child list changes. -/
theorem children_of_ne (hu : t.TextPut g content u) (h : t.WellLinked)
    (hsize : t.size < NodeId.bound) {q : NodeId} (hq : q ≠ g.parent) :
    u.children q = t.children q := by
  cases hu with
  | joined _ => exact SameLinks.children (.modify t _ fun _ => .text _) h q
  | made _ hu => rw [hu.children_eq h hsize, if_neg hq]

/-- Only the text just before the gap gets another payload. -/
theorem payload?_eq (hu : t.TextPut g content u) {x : NodeId} (hx : x.index < t.size)
    (hne : ∀ old, t.endText? g.left ≠ some (x, old)) : u.payload? x = t.payload? x := by
  cases hu with
  | @joined last old hend =>
    have hlast : last ≠ x := by
      rintro rfl
      exact hne old hend
    rw [payload?_modify t last fun _ => .text (old ++ content), if_neg hlast]
  | made _ hu => rw [hu.payload?_eq, if_neg (Nat.ne_of_lt hx)]

theorem payload?_end (hu : t.TextPut g content u) {last : NodeId} {old : String}
    (hend : t.endText? g.left = some (last, old)) :
    u.payload? last = some (.text (old ++ content)) := by
  cases hu with
  | joined hend' =>
    obtain ⟨rfl, rfl⟩ := Prod.mk.inj (Option.some.inj (hend'.symm.trans hend))
    obtain ⟨-, htext⟩ := endText?_eq_some_iff.1 hend
    obtain ⟨payload, hpayload, -⟩ := Option.bind_eq_some_iff.1 htext
    rw [payload?_modify t _ fun _ => .text _, if_pos rfl, hpayload, Option.map_some]
  | made hend' _ =>
    rw [hend'] at hend
    cases hend

theorem size_eq (hu : t.TextPut g content u) :
    u.size = if (t.endText? g.left).isSome then t.size else t.size + 1 := by
  cases hu with
  | joined hend => rw [size_modify, hend, Option.isSome_some, if_pos rfl]
  | made hend hu => rw [hu.size_eq, hend, Option.isSome_none, if_neg Bool.false_ne_true]

end TextPut

end Tree

/-! ## Reading texts without their limits -/

namespace Piece

/-- Puts a piece before others; characters join those that they come to stand before. -/
def before : Piece → List Piece → List Piece
  | .text a, .text b :: rest => .text (a ++ b) :: rest
  | piece, rest => piece :: rest

/-- Each run of neighbouring texts becomes one text. -/
def joined (pieces : List Piece) : List Piece := pieces.foldr before []

example : joined [.text "a", .text "b", .node .root, .text "c", .text "", .text "d"] =
    [.text "ab", .node .root, .text "cd"] := by decide

theorem joined_append_congr {pieces ps qs : List Piece} (h : joined ps = joined qs) :
    joined (pieces ++ ps) = joined (pieces ++ qs) := by
  unfold joined at h ⊢
  rw [List.foldr_append, List.foldr_append, h]

theorem joined_text_text (a b : String) (rest : List Piece) :
    joined (.text (a ++ b) :: rest) = joined (.text a :: .text b :: rest) := by
  simp only [joined, List.foldr_cons]
  generalize rest.foldr before [] = pieces
  cases pieces with
  | nil => rfl
  | cons piece pieces =>
    cases piece with
    | node id => rfl
    | text c => simp only [before, String.append_assoc]

end Piece

namespace Tree

/-- A child as a reader sees it: the characters of a text, or a node of another kind. -/
def piece (t : Tree) (id : NodeId) : Piece :=
  match t.text? id with
  | some content => .text content
  | none => .node id

/-- `u` is `t` with characters in a gap, as a reader sees it who does not see the limits of
neighbouring texts.  A node is made exactly if no text stands just before the gap; else this
text gets the characters. -/
structure Inscribed (t : Tree) (g : Gap) (content : String) (u : Tree) : Prop where
  read : Piece.joined ((u.children g.parent).map u.piece) =
    Piece.joined (g.left.map t.piece ++ .text content :: g.right.map t.piece)
  kids : ∀ q, q ≠ g.parent → u.children q = t.children q
  payload_end : ∀ last old, t.endText? g.left = some (last, old) →
    u.payload? last = some (.text (old ++ content))
  payload : ∀ x, x.index < t.size → (∀ old, t.endText? g.left ≠ some (x, old)) →
    u.payload? x = t.payload? x
  size : u.size = if (t.endText? g.left).isSome then t.size else t.size + 1

variable {t u : Tree} {g : Gap} {content : String} {x : NodeId}

theorem piece_eq_of_payload? (h : u.payload? x = t.payload? x) : u.piece x = t.piece x := by
  unfold piece text?
  rw [h]

theorem piece_of_text (h : t.payload? x = some (.text content)) : t.piece x = .text content := by
  unfold piece text?
  rw [h]
  rfl

/-- Both ways of putting characters into a gap are read the same way. -/
theorem TextPut.read (hu : t.TextPut g content u) (h : t.WellLinked)
    (hsize : t.size < NodeId.bound) (hsplit : t.children g.parent = g.left ++ g.right) :
    Piece.joined ((u.children g.parent).map u.piece) =
      Piece.joined (g.left.map t.piece ++ .text content :: g.right.map t.piece) := by
  have hin : ∀ x ∈ g.left ++ g.right, x.index < t.size := fun x hx =>
    (h.kids g.parent).index_lt (hsplit.symm ▸ hx)
  have hnodup : (g.left ++ g.right).Nodup := hsplit ▸ (h.kids g.parent).nodup
  have hsame : ∀ x ∈ g.left ++ g.right, (∀ old, t.endText? g.left ≠ some (x, old)) →
      u.piece x = t.piece x := fun x hx hne => piece_eq_of_payload? (hu.payload?_eq (hin x hx) hne)
  cases hend : t.endText? g.left with
  | some found =>
    obtain ⟨last, old⟩ := found
    have hkids : u.children g.parent = g.left ++ g.right := by
      cases hu with
      | joined _ => rw [SameLinks.children (.modify t _ fun _ => .text _) h, hsplit]
      | made hend' _ =>
        rw [hend'] at hend
        cases hend
    obtain ⟨hlast, htext⟩ := endText?_eq_some_iff.1 hend
    obtain ⟨front, hfront⟩ : ∃ front, g.left = front ++ [last] :=
      ⟨g.left.dropLast, (List.dropLast_append_getLast? last hlast).symm⟩
    -- the text just before the gap occurs once among the children
    have hrest : ∀ x ∈ front ++ g.right, u.piece x = t.piece x := by
      intro x hx
      refine hsame x (by grind) fun old' hend' => ?_
      rw [hend] at hend'
      have hxlast : last = x := (Prod.mk.inj (Option.some.inj hend')).1
      grind
    have hold : t.piece last = .text old := by
      unfold piece
      rw [htext]
    have hnew := piece_of_text (hu.payload?_end hend)
    rw [hkids, hfront, List.append_assoc, List.singleton_append, List.map_append, List.map_cons,
      hnew, List.map_append, List.map_singleton, hold, List.append_assoc, List.singleton_append,
      List.map_congr_left fun x hx => hrest x (List.mem_append_left _ hx),
      List.map_congr_left fun x hx => hrest x (List.mem_append_right _ hx)]
    exact Piece.joined_append_congr (Piece.joined_text_text old content _)
  | none =>
    have hnone : ∀ (x : NodeId) (old : String), t.endText? g.left ≠ some (x, old) := by
      intro x old hsome
      rw [hend] at hsome
      cases hsome
    cases hu with
    | joined hend' =>
      rw [hend'] at hend
      cases hend
    | made _ hu =>
      have hnew : u.piece (t.create (.text content)).1 = .text content := by
        apply piece_of_text
        rw [hu.payload?_eq, if_pos (index_create hsize _)]
      rw [hu.children_eq h hsize, if_pos rfl, List.map_append, List.map_cons, hnew,
        List.map_congr_left fun x hx => hsame x (List.mem_append_left _ hx) (hnone x),
        List.map_congr_left fun x hx => hsame x (List.mem_append_right _ hx) (hnone x)]

end Tree

/-- After any calls with existing numbers, characters that are put at a spot come into the gap
that it names, whether they join the text just before the gap or get a node of their own.  They
are put nowhere only before a sibling without a parent. -/
theorem inscribed_of_runs (calls : List Call) (log : Log) (s : Tree × Log)
    (hrun : Runs calls (Tree.new, log) s) (hsize : s.1.size < NodeId.bound) (spot : Spot) (g : Gap)
    (hspot : ∀ i ∈ spot.ids, i.index < s.1.size) (hgap : s.1.gap? spot = some g)
    (content : String) :
    s.1.children g.parent = g.left ++ g.right ∧
    ∃ u, Edit.place (.text content) spot s.1 = .ok () u ∧ s.1.Inscribed g content u := by
  have hlinked : s.1.WellLinked :=
    (@sound_of_runs False calls _ s hrun (fun h => h.elim) sound_new (Nat.le_of_lt hsize)).linked
  have hsplit := (hlinked.reaches hgap).children_eq
  obtain ⟨u, hplace, hu⟩ := hlinked.exists_place_text hsize hspot hgap content
  exact ⟨hsplit, u, hplace, hu.read hlinked hsize hsplit,
    fun q hq => hu.children_of_ne hlinked hsize hq, fun _ _ hend => hu.payload?_end hend,
    fun _ hx hne => hu.payload?_eq hx hne, hu.size_eq⟩

/-- The calls that make an element with a text and a table. -/
def callsForTable : List Call :=
  [.createHtml "body", .createText "a", .createHtml "table", .append .root (.ofNat 1),
    .append (.ofNat 1) (.ofNat 2), .append (.ofNat 1) (.ofNat 3)]

/-- What these calls leave. -/
def tableRow : Tree × Log := callsForTable.foldl (fun s c => c.after s) (Tree.new, #[])

/-- Characters out of a table join the text before it; before that text they get a node. -/
theorem inscribed_of_runs_table :
    (∃ u, Edit.place (.text "b") (.beside (.ofNat 3) .root) tableRow.1 = .ok () u ∧
      Piece.joined ((u.children (.ofNat 1)).map u.piece) = [.text "ab", .node (.ofNat 3)] ∧
      u.size = 4) ∧
    ∃ u, Edit.place (.text "b") (.before (.ofNat 2)) tableRow.1 = .ok () u ∧
      Piece.joined ((u.children (.ofNat 1)).map u.piece) = [.text "ba", .node (.ofNat 3)] ∧
      u.size = 5 := by
  have hrun : Runs callsForTable (Tree.new, #[]) tableRow := by
    unfold callsForTable
    exact .cons (by decide) (.cons (by decide) (.cons (by decide) (.cons (by decide)
      (.cons (by decide) (.cons (by decide) (.nil _))))))
  have hsize : tableRow.1.size < NodeId.bound := by decide +kernel
  refine ⟨?_, ?_⟩
  · obtain ⟨-, u, hplace, hu⟩ := inscribed_of_runs callsForTable #[] tableRow hrun hsize
      (.beside (.ofNat 3) .root) ⟨.ofNat 1, [.ofNat 2], [.ofNat 3]⟩ (by decide +kernel)
      (by decide +kernel) "b"
    exact ⟨u, hplace, hu.read.trans (by decide +kernel), hu.size.trans (by decide +kernel)⟩
  · obtain ⟨-, u, hplace, hu⟩ := inscribed_of_runs callsForTable #[] tableRow hrun hsize
      (.before (.ofNat 2)) ⟨.ofNat 1, [], [.ofNat 2, .ofNat 3]⟩ (by decide +kernel)
      (by decide +kernel) "b"
    exact ⟨u, hplace, hu.read.trans (by decide +kernel), hu.size.trans (by decide +kernel)⟩

end DocTree
