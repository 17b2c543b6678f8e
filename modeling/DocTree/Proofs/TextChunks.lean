import DocTree.Proofs.TextPlacement
set_option autoImplicit false

/-!
# TextChunks: characters that arrive in chunks

A reader of markup may hand over a run of characters in one piece or cut into chunks.  The first
chunk leaves a text just before the gap that the spot names, whether it was there already or was
made (`exists_place_text_ends`), and every further chunk finds this text again and joins it
(`EndsAt.forM_place`).  What is left behind does not show the cuts (`place_chunks_of_runs`).
-/

namespace DocTree

namespace Tree

variable {t u : Tree} {spot : Spot} {g : Gap} {last : NodeId} {old content : String}

/-- The text `last`, which says `content`, stands just before the gap that a spot names. -/
def EndsAt (t : Tree) (spot : Spot) (last : NodeId) (content : String) : Prop :=
  ∃ g, t.gap? spot = some g ∧ t.endText? g.left = some (last, content)

/-! ## Rows that differ in one text -/

/-- Gaps are read off the links. -/
theorem SameLinks.gap?_eq (hu : t.SameLinks u) (h : t.WellLinked) (spot : Spot) :
    u.gap? spot = t.gap? spot := by
  have hbefore : ∀ sib, u.gapBefore? sib = t.gapBefore? sib := by
    intro sib
    unfold gapBefore?
    simp only [hu.parent, hu.children h]
  have hatEnd : ∀ p, u.gapAtEnd p = t.gapAtEnd p := by
    intro p
    unfold gapAtEnd
    rw [hu.children h]
  cases spot with
  | last p => exact congrArg some (hatEnd p)
  | before sib => exact hbefore sib
  | beside element fallback => rw [gap?, gap?, hbefore, hatEnd]

/-- The row in which `last` says `content`. -/
def write (t : Tree) (last : NodeId) (content : String) : Tree :=
  t.modify last fun m => { m with payload := .text content }

theorem sameLinks_write (t : Tree) (last : NodeId) (content : String) :
    t.SameLinks (t.write last content) := .modify t last fun _ => .text content

@[simp] theorem write_write (t : Tree) (last : NodeId) (old content : String) :
    (t.write last old).write last content = t.write last content := modify_modify ..

theorem write_eq_self (h : t.text? last = some content) : t.write last content = t := by
  apply modify_eq_self
  intro n hn
  obtain ⟨payload, hpayload, htext⟩ := Option.bind_eq_some_iff.1 h
  rw [payload?, hn, Option.map_some, Option.some.injEq] at hpayload
  cases payload <;> cases htext
  rw [← hpayload]

theorem text?_write (h : t.text? last = some old) (content : String) :
    (t.write last content).text? last = some content := by
  obtain ⟨payload, hpayload, -⟩ := Option.bind_eq_some_iff.1 h
  rw [text?, write, payload?_modify t last fun _ => .text content, if_pos rfl, hpayload]
  rfl

/-! ## The further chunks -/

namespace EndsAt

theorem text? (h : t.EndsAt spot last content) : t.text? last = some content := by
  obtain ⟨g, -, hend⟩ := h
  exact (endText?_eq_some_iff.1 hend).2

/-- Writing into the text does not move it. -/
theorem write (hend : t.EndsAt spot last old) (h : t.WellLinked) (content : String) :
    (t.write last content).EndsAt spot last content := by
  have htext := hend.text?
  obtain ⟨g, hgap, hend⟩ := hend
  refine ⟨g, ((t.sameLinks_write last content).gap?_eq h spot).trans hgap, ?_⟩
  exact endText?_eq_some_iff.2 ⟨(endText?_eq_some_iff.1 hend).1, text?_write htext content⟩

/-- A chunk joins the text before the gap. -/
theorem place (hend : t.EndsAt spot last old) (h : t.WellLinked) (chunk : String) :
    Edit.place (.text chunk) spot t = .ok () (t.write last (old ++ chunk)) := by
  obtain ⟨g, hgap, hend⟩ := hend
  exact h.place_text_of_endText? hgap hend chunk

/-- So do all that follow it. -/
theorem forM_place (hend : t.EndsAt spot last old) (h : t.WellLinked) (chunks : List String) :
    (forM chunks fun chunk => Edit.place (.text chunk) spot) t =
      .ok () (t.write last (old ++ String.join chunks)) := by
  induction chunks generalizing t old with
  | nil =>
    rw [String.join_nil, String.append_empty, write_eq_self hend.text?]
    rfl
  | cons chunk chunks ih =>
    have hlinks := t.sameLinks_write last (old ++ chunk)
    have hrest := ih (hend.write h (old ++ chunk)) (h.of_sameLinks hlinks)
    rw [write_write, String.append_assoc, ← String.join_cons] at hrest
    rw [List.forM_cons]
    simp only [bind_apply, hend.place h chunk, hrest]

end EndsAt

/-! ## The first chunk -/

namespace MadeIn

variable {payload : Payload}

/-- The node stands just before the gap that its spot names then. -/
theorem gap?_eq (hu : t.MadeIn g payload u) (h : t.WellLinked) (hsize : t.size < NodeId.bound)
    (hspot : ∀ i ∈ spot.ids, i.index < t.size) (hgap : t.gap? spot = some g) :
    u.gap? spot = some ⟨g.parent, g.left ++ [(t.create payload).1], g.right⟩ := by
  have hlinked := hu.wellLinked h hsize (h.reaches hgap).children_eq
  have hkids : u.children g.parent = g.left ++ (t.create payload).1 :: g.right := by
    rw [hu.children_eq h hsize, if_pos rfl]
  have hatEnd : ∀ p, t.gap? (.last p) = some g →
      u.gap? (.last p) = some ⟨g.parent, g.left ++ [(t.create payload).1], g.right⟩ := by
    intro p hgap
    obtain rfl := Option.some.inj hgap
    have hlist : u.children p = t.children p ++ [(t.create payload).1] := hkids
    rw [gap?, gapAtEnd, hlist]
    rfl
  have hbefore : ∀ sib, t.gap? (.before sib) = some g →
      u.gap? (.before sib) = some ⟨g.parent, g.left ++ [(t.create payload).1], g.right⟩ := by
    intro sib hgap
    obtain ⟨p, hparent, -⟩ := Option.map_eq_some_iff.1 hgap
    obtain ⟨left, right, heq, -⟩ := h.gapBefore?_eq hparent
    obtain rfl := Option.some.inj (heq.symm.trans hgap)
    apply hlinked.gapBefore?_of_split
    rw [hkids, List.append_assoc, List.singleton_append]
  cases spot with
  | last p => exact hatEnd p hgap
  | before sib => exact hbefore sib hgap
  | beside element fallback =>
    -- making a node gives no other node a parent
    have hsame := hu.parent?_eq hsize (hspot element List.mem_cons_self)
    cases hparent : t.parent? element with
    | none =>
      rw [gap?_beside_of_parent?_eq_none hparent] at hgap
      rw [gap?_beside_of_parent?_eq_none (hsame.trans hparent)]
      exact hatEnd fallback hgap
    | some p =>
      rw [gap?_beside_of_parent? hparent] at hgap
      rw [gap?_beside_of_parent? (hsame.trans hparent)]
      exact hbefore element hgap

/-- What a text says when it is made can as well be written into it afterwards. -/
theorem eq_write {v : Tree} (hu : t.MadeIn g (.text old) u)
    (hv : t.MadeIn g (.text content) v) (h : t.WellLinked) (hsize : t.size < NodeId.bound)
    (hsplit : t.children g.parent = g.left ++ g.right) :
    v = u.write (t.create (.text old)).1 content := by
  have hlinks := u.sameLinks_write (t.create (.text old)).1 content
  have hlinked := hu.wellLinked h hsize hsplit
  refine (hlinked.of_sameLinks hlinks).eq_of_children (hv.wellLinked h hsize hsplit)
    (fun q => ?_) (fun x => ?_) ?_ ?_
  · rw [hlinks.children hlinked, hu.children_eq h hsize, hv.children_eq h hsize]
    rfl
  · have hnew : (t.create (.text old)).1 = x ↔ x.index = t.size := by
      rw [← NodeId.index_inj, index_create hsize, eq_comm]
    rw [hv.payload?_eq, write, payload?_modify u _ fun _ => .text content, hu.payload?_eq]
    simp only [hnew]
    split <;> rfl
  · rw [write, size_modify, hu.size_eq, hv.size_eq]
  · rw [write, size_modify, hu.size_eq]
    exact hsize

end MadeIn

/-- The first chunk leaves a text before the gap, and what would have been put there at once is
this text with the rest behind it. -/
theorem WellLinked.exists_place_text_ends (h : t.WellLinked) (hsize : t.size < NodeId.bound)
    (hspot : ∀ i ∈ spot.ids, i.index < t.size) (hgap : t.gap? spot = some g) (chunk : String) :
    ∃ s last old, Edit.place (.text chunk) spot t = .ok () s ∧ s.WellLinked ∧
      s.EndsAt spot last old ∧ ∀ rest,
        Edit.place (.text (chunk ++ rest)) spot t = .ok () (s.write last (old ++ rest)) := by
  cases hend : t.endText? g.left with
  | some found =>
    obtain ⟨last, old⟩ := found
    have hends : t.EndsAt spot last old := ⟨g, hgap, hend⟩
    refine ⟨t.write last (old ++ chunk), last, old ++ chunk, hends.place h chunk,
      h.of_sameLinks (t.sameLinks_write last _), hends.write h _, fun rest => ?_⟩
    rw [write_write, String.append_assoc]
    exact hends.place h (chunk ++ rest)
  | none =>
    have hsplit := (h.reaches hgap).children_eq
    obtain ⟨s, hrun, hs⟩ := h.exists_place_text_made hsize hspot hgap hend chunk
    have hends : s.EndsAt spot (t.create (.text chunk)).1 chunk := by
      refine ⟨_, hs.gap?_eq h hsize hspot hgap, ?_⟩
      refine endText?_eq_some_iff.2 ⟨List.getLast?_concat, ?_⟩
      rw [text?, hs.payload?_eq, if_pos (index_create hsize _)]
      rfl
    refine ⟨s, _, chunk, hrun, hs.wellLinked h hsize hsplit, hends, fun rest => ?_⟩
    obtain ⟨u, hrun', hu⟩ := h.exists_place_text_made hsize hspot hgap hend (chunk ++ rest)
    rw [hrun', hs.eq_write hu h hsize hsplit]

end Tree

/-! ## All chunks -/

/-- After any calls with existing numbers, characters that are sent to a spot in any number of
chunks, some of which may be empty, leave the same row behind as the same characters sent there at
once.  The spot must not be one before a sibling without a parent. -/
theorem place_chunks_of_runs (calls : List Call) (log : Log) (s : Tree × Log)
    (hrun : Runs calls (Tree.new, log) s) (hsize : s.1.size < NodeId.bound) (spot : Spot)
    (hspot : ∀ i ∈ spot.ids, i.index < s.1.size)
    (hplace : ∀ sib, spot = .before sib → s.1.parent? sib ≠ none) (content : String)
    (chunks : List String) (hne : chunks ≠ []) (hcut : String.join chunks = content) :
    ∃ u, Edit.place (.text content) spot s.1 = .ok () u ∧
      (forM chunks fun chunk => Edit.place (.text chunk) spot) s.1 = .ok () u := by
  have hlinked := wellLinked_of_runs hrun (Nat.le_of_lt hsize)
  obtain ⟨chunk, rest, rfl⟩ := List.exists_cons_of_ne_nil hne
  cases hgap : s.1.gap? spot with
  | none =>
    obtain ⟨sib, heq, hparent⟩ := Tree.gap?_eq_none hgap
    exact absurd hparent (hplace sib heq)
  | some g =>
    obtain ⟨v, last, old, hfirst, hv, hends, hwhole⟩ :=
      hlinked.exists_place_text_ends hsize hspot hgap chunk
    rw [String.join_cons] at hcut
    refine ⟨v.write last (old ++ String.join rest), hcut ▸ hwhole _, ?_⟩
    rw [List.forM_cons]
    simp only [bind_apply, hfirst, hends.forM_place hv rest]

/-- The calls that make an element with a table and a text behind it. -/
def callsForChunks : List Call :=
  [.createHtml "body", .append .root (.ofNat 1), .createHtml "table",
    .append (.ofNat 1) (.ofNat 2), .appendText (.ofNat 1) "a"]

/-- What these calls leave. -/
def chunksRow : Tree × Log := callsForChunks.foldl (fun s c => c.after s) (Tree.new, #[])

/-- The chunks that come to the end join the text there; of those that come out of the table the
first one gets a node before the table, though it is empty, and the others join it. -/
theorem place_chunks_of_runs_table :
    (∃ u, Edit.place (.text "bc") (.last (.ofNat 1)) chunksRow.1 = .ok () u ∧
      (forM ["b", "", "c"] fun chunk => Edit.place (.text chunk) (.last (.ofNat 1)))
        chunksRow.1 = .ok () u ∧
      u.text? (.ofNat 3) = some "abc" ∧ u.children (.ofNat 1) = [.ofNat 2, .ofNat 3]) ∧
    ∃ u, Edit.place (.text "bc") (.beside (.ofNat 2) .root) chunksRow.1 = .ok () u ∧
      (forM ["", "b", "c"] fun chunk => Edit.place (.text chunk) (.beside (.ofNat 2) .root))
        chunksRow.1 = .ok () u ∧
      u.text? (.ofNat 4) = some "bc" ∧ u.children (.ofNat 1) = [.ofNat 4, .ofNat 2, .ofNat 3] := by
  have hrun : Runs callsForChunks (Tree.new, #[]) chunksRow :=
    runs_iff.2 ⟨by decide +kernel, rfl⟩
  have hsize : chunksRow.1.size < NodeId.bound := by decide +kernel
  constructor
  · obtain ⟨u, hplace, hchunks⟩ := place_chunks_of_runs callsForChunks #[] chunksRow hrun hsize
      (.last (.ofNat 1)) (by decide +kernel) (fun _ h => by cases h) "bc" ["b", "", "c"]
      (by decide) (by decide)
    have hu := Edit.leave_eq_of_ok hplace
    exact ⟨u, hplace, hchunks, hu ▸ by decide +kernel⟩
  · obtain ⟨u, hplace, hchunks⟩ := place_chunks_of_runs callsForChunks #[] chunksRow hrun hsize
      (.beside (.ofNat 2) .root) (by decide +kernel) (fun _ h => by cases h) "bc" ["", "b", "c"]
      (by decide) (by decide)
    have hu := Edit.leave_eq_of_ok hplace
    exact ⟨u, hplace, hchunks, hu ▸ by decide +kernel⟩

end DocTree
