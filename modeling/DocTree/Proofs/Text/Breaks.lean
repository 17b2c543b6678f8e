import DocTree.Proofs.Text.Utf8
import DocTree.Text.LineBreaks
set_option autoImplicit false

/-!
# Breaks: reading back what was written with hard breaks

`hardBreaks` writes line by line (`brokenLines_hardBreaks`, `lastLine_hardBreaks`), and a
written line tells whether it stands for a blank one: the mark of a blank line is shorter
than any hard break.  So the lines can be read back up to the spaces and tabs at their ends,
and texts are written alike exactly if they agree up to these.
-/

namespace DocTree.Text

variable {l x y : Bytes}

/-! ## Written lines -/

/-- The line that stands for a blank one. -/
def markLine : Bytes := [92]

/-- The line that is written for a line that a newline ends. -/
def writtenLine (l : Bytes) : Bytes := if (trim l).isEmpty then markLine else trim l ++ [32, 32]

theorem writeInnerLine_eq (l : Bytes) : writeInnerLine l = writtenLine l ++ [10] := by
  unfold writeInnerLine writtenLine
  split
  · rfl
  · rw [List.append_assoc]
    rfl

/-- Only a blank line is written as the mark of one. -/
theorem writtenLine_eq_markLine_iff : writtenLine l = markLine ↔ trim l = [] := by
  unfold writtenLine markLine
  split
  · next h => exact iff_of_true rfl (List.isEmpty_iff.1 h)
  · next h =>
    refine iff_of_false (fun heq => ?_) fun hnil => h (List.isEmpty_iff.2 hnil)
    have hlen := congrArg List.length heq
    simp at hlen

theorem newline_not_mem_writtenLine (h : 10 ∉ l) : 10 ∉ writtenLine l := by
  unfold writtenLine
  split
  · decide
  · rw [List.mem_append, not_or]
    exact ⟨newline_not_mem_trim h, by decide⟩

/-! ## Line by line -/

theorem hardBreaks_of_not_mem (h : 10 ∉ l) : hardBreaks l = trim l := by
  rw [hardBreaks, lines_of_not_mem h, writeLines]

theorem writeLines_cons {ls : List Bytes} (h : ls ≠ []) (l : Bytes) :
    writeLines (l :: ls) = writeInnerLine l ++ writeLines ls := by
  rw [writeLines]
  exact h

theorem hardBreaks_append_newline (h : 10 ∉ l) (x : Bytes) :
    hardBreaks (l ++ 10 :: x) = writtenLine l ++ 10 :: hardBreaks x := by
  rw [hardBreaks, hardBreaks, lines_append_newline h, writeLines_cons (lines_ne_nil x),
    writeInnerLine_eq, List.append_assoc, List.singleton_append]

@[simp] theorem brokenLines_hardBreaks (x : Bytes) :
    brokenLines (hardBreaks x) = (brokenLines x).map writtenLine := by
  induction x using lineInduct with
  | last l hl =>
    rw [hardBreaks_of_not_mem hl, brokenLines_of_not_mem hl,
      brokenLines_of_not_mem (newline_not_mem_trim hl), List.map_nil]
  | line l x hl ih =>
    rw [hardBreaks_append_newline hl, brokenLines_append_newline hl,
      brokenLines_append_newline (newline_not_mem_writtenLine hl), ih, List.map_cons]

@[simp] theorem lastLine_hardBreaks (x : Bytes) : lastLine (hardBreaks x) = trim (lastLine x) := by
  induction x using lineInduct with
  | last l hl =>
    rw [hardBreaks_of_not_mem hl, lastLine_of_not_mem hl,
      lastLine_of_not_mem (newline_not_mem_trim hl)]
  | line l x hl ih =>
    rw [hardBreaks_append_newline hl, lastLine_append_newline hl,
      lastLine_append_newline (newline_not_mem_writtenLine hl), ih]

/-! ## Reading back -/

/-- What a written line that a newline ends stands for. -/
def readLine (l : Bytes) : Bytes := if l = markLine then [] else l.take (l.length - 2)

/-- The lines that a text with hard breaks stands for. -/
def readBreaks (x : Bytes) : List Bytes := (brokenLines x).map readLine ++ [lastLine x]

@[simp] theorem readLine_writtenLine (l : Bytes) : readLine (writtenLine l) = trim l := by
  unfold readLine
  split
  · next h => exact (writtenLine_eq_markLine_iff.1 h).symm
  · next h =>
    have hne : ¬ (trim l).isEmpty := fun hempty =>
      h (writtenLine_eq_markLine_iff.2 (List.isEmpty_iff.1 hempty))
    rw [writtenLine, if_neg hne, List.length_append, List.length_cons, List.length_singleton,
      Nat.add_sub_cancel, List.take_left]

theorem readBreaks_hardBreaks (x : Bytes) : readBreaks (hardBreaks x) = (lines x).map trim := by
  rw [readBreaks, brokenLines_hardBreaks, lastLine_hardBreaks, lines_eq, List.map_append,
    List.map_map, List.map_singleton]
  congr 2
  exact funext readLine_writtenLine

/-- Of each line only what is left of it after trimming is written. -/
theorem writeLines_congr {ls ms : List Bytes} (h : ls.map trim = ms.map trim) :
    writeLines ls = writeLines ms := by
  have hinner : ∀ l m, trim l = trim m → writeInnerLine l = writeInnerLine m := by
    intro l m hlm
    rw [writeInnerLine, writeInnerLine, hlm]
  induction ls generalizing ms with
  | nil => rw [List.map_eq_nil_iff.1 h.symm]
  | cons l ls ih =>
    cases ms with
    | nil => simp at h
    | cons m ms =>
      rw [List.map_cons, List.map_cons, List.cons.injEq] at h
      have hnil : ls = [] ↔ ms = [] := by
        rw [← List.map_eq_nil_iff (f := trim), h.2, List.map_eq_nil_iff]
      by_cases hls : ls = []
      · rw [hls, hnil.1 hls]
        exact h.1
      · rw [writeLines_cons hls, writeLines_cons (mt hnil.2 hls), hinner l m h.1, ih h.2]

/-- Trimming takes from a line the spaces and tabs that are read at its ends.  Texts written
with hard breaks can be read back up to these, and are written alike exactly if they have
equally many lines and the same is left of each.  So a line that is a lone backslash is never
taken for a blank one. -/
theorem hardBreaks_readable :
    (∀ l, trim l <:+: l ∧ decodeParts (trim l) =
      ((decodeParts l).dropWhile isBlankPart).rdropWhile isBlankPart) ∧
    (∀ x, readBreaks (hardBreaks x) = (x.splitOn 10).map trim) ∧
    (∀ x y, hardBreaks x = hardBreaks y ↔
      (x.splitOn 10).length = (y.splitOn 10).length ∧
        (x.splitOn 10).map trim = (y.splitOn 10).map trim) ∧
    (∀ x y (i : Nat) l m, (x.splitOn 10)[i]? = some l → (y.splitOn 10)[i]? = some m →
      trim l = [92] → trim m = [] → hardBreaks x ≠ hardBreaks y) := by
  simp only [← lines_eq_splitOn]
  have hinj : ∀ x y, hardBreaks x = hardBreaks y → (lines x).map trim = (lines y).map trim := by
    intro x y h
    rw [← readBreaks_hardBreaks, h, readBreaks_hardBreaks]
  refine ⟨fun l => ⟨trim_isInfix l, decodeParts_trim l⟩, readBreaks_hardBreaks,
    fun x y => ⟨fun h => ?_, fun h => writeLines_congr h.2⟩, ?_⟩
  · have hmap := hinj x y h
    have hlen := congrArg List.length hmap
    rw [List.length_map, List.length_map] at hlen
    exact ⟨hlen, hmap⟩
  · intro x y i l m hl hm hmark hblank heq
    have hi := congrArg (fun ls : List Bytes => ls[i]?) (hinj x y heq)
    simp [hl, hm, hmark, hblank] at hi

end DocTree.Text
