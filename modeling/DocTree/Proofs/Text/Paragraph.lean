import DocTree.Proofs.Text.Breaks
import DocTree.Proofs.Text.Newlines
set_option autoImplicit false

/-!
# Paragraph: a text with hard breaks is one paragraph

`hardBreaks` keeps the lines of a text and leaves none of them empty or blank
(`exists_not_blank_of_mem`), so nothing in what it writes ends a paragraph, and there is no
run of newlines that could be shortened (`hardBreaks_paragraph`).
-/

namespace DocTree.Text

variable {l w x : Bytes}

/-! ## Lines that a newline ends -/

/-- How a line that a newline ends is written: a blank one as a lone backslash, any other one
without the spaces and tabs at its ends and with two spaces behind it. -/
structure Written (l w : Bytes) : Prop where
  mark : w = [92] ↔ ∀ b ∈ l, b = 32 ∨ b = 9
  rest : w ≠ [92] → ∃ s, s ≠ [] ∧ Stripped l s ∧ w = s ++ [32, 32]

theorem written_writtenLine (l : Bytes) : Written l (writtenLine l) where
  mark := writtenLine_eq_markLine_iff.trans trim_eq_nil_iff
  rest := by
    intro h
    have hne : trim l ≠ [] := fun hnil => h (writtenLine_eq_markLine_iff.2 hnil)
    refine ⟨trim l, hne, stripped_trim l, ?_⟩
    rw [writtenLine, if_neg fun hempty => hne (List.isEmpty_iff.1 hempty)]

theorem Written.exists_not_blank (h : Written l w) : ∃ b ∈ w, b ≠ 32 ∧ b ≠ 9 := by
  by_cases hw : w = [92]
  · subst hw
    exact ⟨92, by decide⟩
  · obtain ⟨s, hne, hs, rfl⟩ := h.rest hw
    obtain ⟨b, hb, hblank⟩ := hs.exists_not_blank hne
    exact ⟨b, List.mem_append_left _ hb, hblank⟩

/-! ## All lines -/

theorem forall₂_written (x : Bytes) :
    List.Forall₂ Written (brokenLines x) (brokenLines (hardBreaks x)) := by
  rw [brokenLines_hardBreaks, List.forall₂_map_right_iff, List.forall₂_same]
  exact fun l _ => written_writtenLine l

theorem exists_not_blank_of_mem (h : w ∈ brokenLines (hardBreaks x)) :
    ∃ b ∈ w, b ≠ 32 ∧ b ≠ 9 := by
  rw [brokenLines_hardBreaks] at h
  obtain ⟨l, -, rfl⟩ := List.mem_map.1 h
  exact (written_writtenLine l).exists_not_blank

theorem newlines_not_adjacent (x : Bytes) : ¬ [10, 10] <:+: hardBreaks x := by
  intro h
  obtain ⟨b, hb, -⟩ := exists_not_blank_of_mem (nil_mem_brokenLines_of_adjacent h)
  exact List.not_mem_nil hb

/-- A text with hard breaks has the lines of the text it was written for, none of them blank
unless it is the last one.  No two newlines are adjacent, and `capNewlines` leaves the text as
it is. -/
theorem hardBreaks_paragraph (x : Bytes) :
    (hardBreaks x).count 10 = x.count 10 ∧
    List.Forall₂ Written (brokenLines x) (brokenLines (hardBreaks x)) ∧
    Stripped (lastLine x) (lastLine (hardBreaks x)) ∧
    ¬ [10, 10] <:+: hardBreaks x ∧
    (∀ w ∈ brokenLines (hardBreaks x), ∃ b ∈ w, b ≠ 32 ∧ b ≠ 9) ∧
    capNewlines (hardBreaks x) = hardBreaks x := by
  have hlines := forall₂_written x
  refine ⟨?_, hlines, ?_, newlines_not_adjacent x, fun w hw => exists_not_blank_of_mem hw, ?_⟩
  · rw [← length_brokenLines, ← length_brokenLines, hlines.length_eq]
  · rw [lastLine_hardBreaks]
    exact stripped_trim _
  · apply capNewlines_of_short_runs
    have hpair : [10, 10] <:+: ([10, 10, 10] : Bytes) := by decide
    exact fun hlong => newlines_not_adjacent x (hpair.trans hlong)

end DocTree.Text
