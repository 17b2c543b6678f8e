import DocTree.Proofs.Text.Encoded
import DocTree.Proofs.Text.Paragraph
import Mathlib.Data.Nat.Nth
set_option autoImplicit false

/-!
# BlankRuns: where the marks of blank lines stand

`capNewlines` counts newlines only and `hardBreaks` takes lines of spaces and tabs for blank
too.  So of the lines of a text those are written that are not empty or stand behind a line that
is not, besides the first two, each in its place (`WrittenLines`).  A run of empty lines behind
another line gets one mark at most (`newPlace_run_le`), but two marks follow each other where a
blank line stands behind another one and one of them holds a space or a tab, and at the start of
the text (`marks_of_blank_lines`).
-/

namespace DocTree.Text

variable {l m : Bytes} {ls ks ws : List Bytes} {i : Nat}

/-! ## Elements at chosen places -/

section PickedAt

variable {α : Type} {as bs : List α} {p q : Nat → Prop} [DecidablePred p] [DecidablePred q]

/-- `bs` are the elements of `as` at the places where `p` holds, in their order. -/
structure PickedAt (p : Nat → Prop) [DecidablePred p] (as bs : List α) : Prop where
  length : bs.length = Nat.count p as.length
  get : ∀ i a, as[i]? = some a → p i → bs[Nat.count p i]? = some a

namespace PickedAt

theorem nil : PickedAt p ([] : List α) [] where
  length := (Nat.count_zero p).symm
  get := fun i a h => by simp at h

theorem congr (h : PickedAt p as bs) (hpq : ∀ i, p i ↔ q i) : PickedAt q as bs := by
  obtain rfl : p = q := funext fun i => propext (hpq i)
  convert h

theorem cons_pos (h : PickedAt (fun i => p (i + 1)) as bs) (hp : p 0) (a : α) :
    PickedAt p (a :: as) (a :: bs) where
  length := by rw [List.length_cons, List.length_cons, Nat.count_succ', if_pos hp, h.length]
  get := by
    intro i b hb hi
    cases i with
    | zero => simpa using hb
    | succ i =>
      rw [Nat.count_succ', if_pos hp, List.getElem?_cons_succ]
      exact h.get i b hb hi

theorem cons_neg (h : PickedAt (fun i => p (i + 1)) as bs) (hp : ¬ p 0) (a : α) :
    PickedAt p (a :: as) bs where
  length := by rw [List.length_cons, Nat.count_succ', if_neg hp, Nat.add_zero, h.length]
  get := by
    intro i b hb hi
    cases i with
    | zero => exact absurd hi hp
    | succ i =>
      rw [Nat.count_succ', if_neg hp, Nat.add_zero]
      exact h.get i b hb hi

end PickedAt

/-- Every number below a count is the count up to a place that is counted. -/
theorem exists_count_eq {k n : Nat} (h : k < Nat.count p n) :
    ∃ i < n, p i ∧ Nat.count p i = k := by
  have hcard : ∀ hp : (Set.ofPred p).Finite, k < hp.toFinset.card := fun hp =>
    h.trans_le (Nat.count_le_card hp n)
  exact ⟨Nat.nth p k, Nat.nth_lt_of_lt_count h, Nat.nth_mem k hcard, Nat.count_nth hcard⟩

end PickedAt

/-! ## Which lines are written -/

/-- Of the lines `ls` the one at place `i` is written: it is one of the first two, or it or the
line before it is not empty. -/
def IsWritten (ls : List Bytes) (i : Nat) : Prop :=
  i < 2 ∨ ls[i]? ≠ some [] ∨ ls[i - 1]? ≠ some []

instance (ls : List Bytes) : DecidablePred (IsWritten ls) := fun i =>
  inferInstanceAs (Decidable (i < 2 ∨ ls[i]? ≠ some [] ∨ ls[i - 1]? ≠ some []))

theorem isWritten_of_lt (h : i < 2) : IsWritten ls i := Or.inl h

theorem isWritten_succ_iff (hl : ls[i]? = some l) (hm : ls[i + 1]? = some m) :
    IsWritten ls (i + 1) ↔ i = 0 ∨ l ≠ [] ∨ m ≠ [] := by
  have hfirst : i + 1 < 2 ↔ i = 0 := by omega
  rw [IsWritten, Nat.add_sub_cancel, hl, hm, hfirst, Ne, Ne, Option.some.injEq,
    Option.some.injEq, or_comm (a := m ≠ [])]

/-- Behind a line that is kept a line is kept unless it and the one before it are empty. -/
theorem exists_destutter'_eq_cons (l : Bytes) (ls : List Bytes) :
    ∃ ks, ls.destutter' Apart l = l :: ks ∧
      PickedAt (fun i => ls[i]? ≠ some [] ∨ (l :: ls)[i]? ≠ some []) ls ks := by
  induction ls generalizing l with
  | nil => exact ⟨[], rfl, .nil⟩
  | cons m ls ih =>
    by_cases h : Apart l m
    · obtain ⟨ks, hks, hpicked⟩ := ih m
      refine ⟨m :: ks, by rw [List.destutter'_cons_pos ls h, hks], hpicked.cons_pos ?_ m⟩
      simpa [Apart, or_comm] using h
    · obtain ⟨rfl, rfl⟩ : l = [] ∧ m = [] := by simpa [Apart] using h
      obtain ⟨ks, hks, hpicked⟩ := ih []
      exact ⟨ks, by rw [List.destutter'_cons_neg ls h, hks], hpicked.cons_neg (by simp) []⟩

theorem pickedAt_capNewlines (x : Bytes) :
    PickedAt (IsWritten (brokenLines x)) (brokenLines x) (brokenLines (capNewlines x)) := by
  cases x using lineInduct with
  | last l hl =>
    rw [brokenLines_of_not_mem hl, brokenLines_capNewlines_of_not_mem hl]
    exact .nil
  | line l x hl =>
    rw [brokenLines_append_newline hl, brokenLines_capNewlines hl]
    cases brokenLines x with
    | nil => exact PickedAt.nil.cons_pos (isWritten_of_lt Nat.zero_lt_two) l
    | cons m ls =>
      obtain ⟨ks, hks, hpicked⟩ := exists_destutter'_eq_cons m ls
      rw [List.destutter_cons', hks]
      refine .cons_pos (.cons_pos (hpicked.congr fun i => ?_) ?_ m) ?_ l
      · simp [IsWritten]
      · exact isWritten_of_lt Nat.one_lt_two
      · exact isWritten_of_lt Nat.zero_lt_two

/-! ## Written lines -/

/-- How many of the lines before place `i` are written.  This is the place at which the line at
`i` is written if it is. -/
abbrev newPlace (ls : List Bytes) (i : Nat) : Nat := Nat.count (IsWritten ls) i

theorem newPlace_succ (h : IsWritten ls i) : newPlace ls (i + 1) = newPlace ls i + 1 :=
  Nat.count_succ_eq_succ_count_iff.2 h

theorem newPlace_succ_of_not_isWritten (h : ¬ IsWritten ls i) :
    newPlace ls (i + 1) = newPlace ls i := Nat.count_succ_eq_count_iff.2 h

/-- The first line is written. -/
theorem newPlace_succ_pos (ls : List Bytes) (i : Nat) : 0 < newPlace ls (i + 1) := by
  have hfirst : newPlace ls 1 = 1 := newPlace_succ (isWritten_of_lt Nat.zero_lt_two)
  have hle : newPlace ls 1 ≤ newPlace ls (i + 1) :=
    Nat.count_monotone _ (Nat.succ_le_succ (Nat.zero_le i))
  omega

/-- `ws` is what is written for the lines `ls`, each of those that are written at its place. -/
structure WrittenLines (ls ws : List Bytes) : Prop where
  length : ws.length = newPlace ls ls.length
  line : ∀ i l, ls[i]? = some l → IsWritten ls i →
    ∃ w, ws[newPlace ls i]? = some w ∧ Written l w

theorem writtenLines_writeMultiline (s : String) :
    WrittenLines (brokenLines (encode s.toList))
      (brokenLines (encode (writeMultiline s).toList)) := by
  have hpicked := pickedAt_capNewlines (encode s.toList)
  rw [encode_writeMultiline, brokenLines_hardBreaks]
  constructor
  · rw [List.length_map, hpicked.length]
  · intro i l hl hi
    refine ⟨writtenLine l, ?_, written_writtenLine l⟩
    rw [List.getElem?_map, hpicked.get i l hl hi, Option.map_some]

namespace WrittenLines

theorem mark_iff_of_isWritten (h : WrittenLines ls ws) (hl : ls[i]? = some l)
    (hi : IsWritten ls i) :
    ws[newPlace ls i]? = some [92] ↔ ∀ b ∈ l, b = 32 ∨ b = 9 := by
  obtain ⟨w, hw, hwritten⟩ := h.line i l hl hi
  rw [hw, Option.some.injEq]
  exact hwritten.mark

/-- The last line that is written up to a place is a mark exactly if the line there is blank: if it
is not written itself, it is empty and stands behind an empty one. -/
theorem mark_iff (h : WrittenLines ls ws) (hl : ls[i]? = some l) :
    ws[newPlace ls (i + 1) - 1]? = some [92] ↔ ∀ b ∈ l, b = 32 ∨ b = 9 := by
  induction i generalizing l with
  | zero =>
    have hfirst : IsWritten ls 0 := isWritten_of_lt Nat.zero_lt_two
    rw [newPlace_succ hfirst, Nat.add_sub_cancel]
    exact h.mark_iff_of_isWritten hl hfirst
  | succ i ih =>
    by_cases hi : IsWritten ls (i + 1)
    · rw [newPlace_succ hi, Nat.add_sub_cancel]
      exact h.mark_iff_of_isWritten hl hi
    · rw [newPlace_succ_of_not_isWritten hi]
      rw [IsWritten, not_or, not_or, not_ne_iff, not_ne_iff, Nat.add_sub_cancel] at hi
      obtain ⟨-, hempty, hbefore⟩ := hi
      obtain rfl := Option.some.inj (hl.symm.trans hempty)
      exact ih hbefore

/-- A mark stands behind a mark exactly where the line it is written for stands behind a blank
one. -/
theorem marks_iff (h : WrittenLines ls ws) (hl : ls[i]? = some l) (hm : ls[i + 1]? = some m)
    (hi : IsWritten ls (i + 1)) :
    ws[newPlace ls (i + 1) - 1]? = some [92] ∧ ws[newPlace ls (i + 1)]? = some [92] ↔
      (∀ b ∈ l, b = 32 ∨ b = 9) ∧ ∀ b ∈ m, b = 32 ∨ b = 9 :=
  and_congr (h.mark_iff hl) (h.mark_iff_of_isWritten hm hi)

theorem marks_adjacent_iff (h : WrittenLines ls ws) :
    (∃ k : Nat, ws[k]? = some [92] ∧ ws[k + 1]? = some [92]) ↔
      ∃ (i : Nat) (l m : Bytes), ls[i]? = some l ∧ ls[i + 1]? = some m ∧ (∀ b ∈ l, b = 32 ∨ b = 9) ∧
        (∀ b ∈ m, b = 32 ∨ b = 9) ∧ (i = 0 ∨ l ≠ [] ∨ m ≠ []) := by
  constructor
  · rintro ⟨k, hmarks⟩
    obtain ⟨hlt, -⟩ := List.getElem?_eq_some_iff.1 hmarks.2
    rw [h.length] at hlt
    obtain ⟨j, hj, hwritten, hcount⟩ := exists_count_eq hlt
    cases j with
    | zero => simp at hcount
    | succ i =>
      have hl := List.getElem?_eq_getElem (Nat.lt_of_succ_lt hj)
      have hm := List.getElem?_eq_getElem hj
      obtain ⟨hblank, hblank'⟩ := (h.marks_iff hl hm hwritten).1
        (by rw [newPlace, hcount]; exact hmarks)
      exact ⟨i, _, _, hl, hm, hblank, hblank', (isWritten_succ_iff hl hm).1 hwritten⟩
  · rintro ⟨i, l, m, hl, hm, hblank, hblank', hplace⟩
    have hwritten := (isWritten_succ_iff hl hm).2 hplace
    refine ⟨newPlace ls (i + 1) - 1, ?_⟩
    rw [Nat.sub_add_cancel (newPlace_succ_pos ls i)]
    exact (h.marks_iff hl hm hwritten).2 ⟨hblank, hblank'⟩

end WrittenLines

/-- Of a run of empty lines behind another line no more than one is written. -/
theorem newPlace_run_le {a b : List Bytes} (ha : a ≠ []) (n : Nat)
    (hls : a ++ List.replicate n [] ++ b = ls) :
    newPlace ls (a.length + n) ≤ newPlace ls a.length + 1 := by
  cases n with
  | zero => exact Nat.le_succ _
  | succ n =>
    have hpos := List.length_pos_of_ne_nil ha
    have hempty : ∀ k < n + 1, ls[a.length + k]? = some [] := by
      intro k hk
      rw [← hls, List.append_assoc, List.getElem?_append_right (Nat.le_add_right _ _),
        Nat.add_sub_cancel_left, List.getElem?_append_left (by simpa using hk),
        List.getElem?_replicate_of_lt hk]
    -- only the first one can be written
    have hnone : Nat.count (fun k => IsWritten ls (a.length + (k + 1))) n = 0 := by
      rw [Nat.count_iff_forall_not]
      rintro k hk (hlt | hne | hne)
      · omega
      · exact hne (hempty (k + 1) (by omega))
      · exact hne (hempty k (by omega))
    unfold newPlace
    rw [Nat.count_add, Nat.count_succ', hnone]
    split <;> omega

/-- Of the lines that a newline ends all are written in their order, a blank one as a mark, but
for empty ones behind empty ones that are not among the first two.  A mark stands behind a mark
exactly where it is written for a line behind a blank one, so that the two open the text or one
of them holds a space or a tab.  A run of empty lines behind another line gives no more than one
line. -/
theorem marks_of_blank_lines (s : String) (ls ws : List Bytes)
    (hls : brokenLines (encode s.toList) = ls)
    (hws : brokenLines (encode (writeMultiline s).toList) = ws) :
    WrittenLines ls ws ∧
    (∀ (i : Nat) (l m : Bytes), ls[i]? = some l → ls[i + 1]? = some m → IsWritten ls (i + 1) →
      (ws[newPlace ls (i + 1) - 1]? = some [92] ∧ ws[newPlace ls (i + 1)]? = some [92] ↔
        (∀ b ∈ l, b = 32 ∨ b = 9) ∧ ∀ b ∈ m, b = 32 ∨ b = 9)) ∧
    ((∃ k : Nat, ws[k]? = some [92] ∧ ws[k + 1]? = some [92]) ↔
      ∃ (i : Nat) (l m : Bytes), ls[i]? = some l ∧ ls[i + 1]? = some m ∧ (∀ b ∈ l, b = 32 ∨ b = 9) ∧
        (∀ b ∈ m, b = 32 ∨ b = 9) ∧ (i = 0 ∨ l ≠ [] ∨ m ≠ [])) ∧
    ∀ (a : List Bytes) (n : Nat) (b : List Bytes), a ≠ [] → a ++ List.replicate n [] ++ b = ls →
      newPlace ls (a.length + n) ≤ newPlace ls a.length + 1 := by
  have hwritten := writtenLines_writeMultiline s
  rw [hls, hws] at hwritten
  exact ⟨hwritten, fun _ _ _ hl hm hi => hwritten.marks_iff hl hm hi,
    hwritten.marks_adjacent_iff, fun a n b ha hsplit => newPlace_run_le ha n hsplit⟩

/-- A run of empty lines, and a run of lines of spaces. -/
theorem marks_of_blank_lines_mixed :
    let s := "a\n\n\n\nb\n \n \nc"
    let ls : List Bytes := [[97], [], [], [], [98], [32], [32]]
    let ws : List Bytes := [[97, 32, 32], [92], [98, 32, 32], [92], [92]]
    brokenLines (encode s.toList) = ls ∧ brokenLines (encode (writeMultiline s).toList) = ws ∧
      WrittenLines ls ws ∧ newPlace ls 4 ≤ newPlace ls 1 + 1 ∧
      ws[newPlace ls 6 - 1]? = some [92] ∧ ws[newPlace ls 6]? = some [92] := by
  intro s ls ws
  have hls : brokenLines (encode s.toList) = ls := by decide +kernel
  have hws : brokenLines (encode (writeMultiline s).toList) = ws := by decide +kernel
  obtain ⟨hwritten, hmarks, -, hrun⟩ := marks_of_blank_lines s ls ws hls hws
  exact ⟨hls, hws, hwritten, hrun [[97]] 3 [[98], [32], [32]] (by decide) rfl,
    (hmarks 5 [32] [32] rfl rfl (by decide)).2 ⟨by simp, by simp⟩⟩

/-- Marks do follow each other. -/
theorem not_marks_apart :
    ¬ ∀ (s : String) (k : Nat),
      ¬ ((brokenLines (encode (writeMultiline s).toList))[k]? = some [92] ∧
        (brokenLines (encode (writeMultiline s).toList))[k + 1]? = some [92]) := by
  intro h
  exact h "a\n \n \nb" 1 (by decide +kernel)

/-- Blank lines with spaces in them, and blank lines that open the text. -/
example : writeMultiline "a\n \n \nb" = "a  \n\\\n\\\nb" ∧
    writeMultiline "\n\nb" = "\\\n\\\nb" := by
  decide +kernel

end DocTree.Text
