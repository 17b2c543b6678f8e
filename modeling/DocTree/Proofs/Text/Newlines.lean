import DocTree.Proofs.Text.Lines
import DocTree.Text.LineBreaks
import Mathlib.Data.List.Destutter
set_option autoImplicit false

/-!
# Newlines: which lines are left when runs of newlines are shortened

Looking for a long run first changes nothing (`capNewlines_eq`).  Line by line,
`capNewlines` keeps the first line and of the others drops an empty one behind an empty one
(`brokenLines_capNewlines`): a line of spaces and tabs is not empty and stays.
-/

namespace DocTree.Text

variable {l x : Bytes} {run : Nat}

/-! ## One pass over all bytes -/

/-- Runs are cut to two newlines. -/
@[simp] theorem longestRun_eq : longestRun = 2 := rfl

@[simp] theorem longRun_eq : longRun = [10, 10, 10] := rfl

@[simp] theorem capFrom_nil (run : Nat) : capFrom run [] = [] := rfl

theorem capFrom_newline (run : Nat) (x : Bytes) : capFrom run (10 :: x) =
    if run < 2 then 10 :: capFrom (run + 1) x else capFrom (run + 1) x := by
  rw [capFrom, newline_eq, longestRun_eq, if_pos rfl]
  by_cases h : run < 2
  · rw [if_neg (by omega), if_pos h]
  · rw [if_pos (by omega), if_neg h]

@[simp] theorem capFrom_cons_of_ne {b : UInt8} (h : b ≠ 10) (run : Nat) (x : Bytes) :
    capFrom run (b :: x) = b :: capFrom 0 x := by
  rw [capFrom, newline_eq, if_neg h]

@[simp] theorem capFrom_of_not_mem (h : 10 ∉ l) (run : Nat) : capFrom run l = l := by
  induction l generalizing run with
  | nil => rfl
  | cons b bs ih =>
    rw [List.mem_cons, not_or] at h
    rw [capFrom_cons_of_ne (Ne.symm h.1), ih h.2]

/-- Behind other bytes no newlines have been counted. -/
theorem capFrom_append (h : 10 ∉ l) (hne : l ≠ []) (run : Nat) (x : Bytes) :
    capFrom run (l ++ x) = l ++ capFrom 0 x := by
  induction l generalizing run with
  | nil => exact absurd rfl hne
  | cons b bs ih =>
    rw [List.mem_cons, not_or] at h
    rw [List.cons_append, capFrom_cons_of_ne (Ne.symm h.1), List.cons_append]
    cases bs with
    | nil => rfl
    | cons c cs => rw [ih h.2 (List.cons_ne_nil _ _)]

theorem capFrom_append_newline (h : 10 ∉ l) (hne : l ≠ []) (run : Nat) (x : Bytes) :
    capFrom run (l ++ 10 :: x) = l ++ 10 :: capFrom 1 x := by
  rw [capFrom_append h hne, capFrom_newline, if_pos (by decide)]

/-! ## Texts without a long run -/

theorem hasLongRun_iff :
    hasLongRun x = true ↔ [10, 10, 10] <:+: x := by
  induction x with
  | nil => decide
  | cons b bs ih =>
    rw [hasLongRun, longRun_eq, Bool.or_eq_true, List.isPrefixOf_iff_prefix, ih,
      List.infix_cons_iff]

theorem capNewlines_of_short_runs (h : ¬ [10, 10, 10] <:+: x) :
    capNewlines x = x := if_neg fun hrun => h (hasLongRun_iff.1 hrun)

theorem hasLongRun_eq_false_of_append {y : Bytes} (h : hasLongRun (y ++ x) = false) :
    hasLongRun x = false := by
  induction y with
  | nil => exact h
  | cons b bs ih =>
    rw [List.cons_append, hasLongRun, Bool.or_eq_false_iff] at h
    exact ih h.2

/-- Nothing is dropped where newlines never add up to a long run. -/
theorem capFrom_of_hasLongRun_eq_false (hrun : run ≤ 2)
    (h : hasLongRun (List.replicate run 10 ++ x) = false) : capFrom run x = x := by
  induction x generalizing run with
  | nil => rfl
  | cons b bs ih =>
    by_cases hb : b = 10
    · subst hb
      have hshort : run < 2 := by
        by_contra hge
        obtain rfl : run = 2 := by omega
        simp [hasLongRun, List.replicate_succ] at h
      rw [capFrom_newline, if_pos hshort, ih hshort]
      rwa [List.replicate_succ', List.append_assoc]
    · rw [capFrom_cons_of_ne hb, ih (Nat.zero_le _)]
      exact hasLongRun_eq_false_of_append (y := List.replicate run 10 ++ [b])
        (by rwa [List.append_assoc])

/-- Looking for a long run first changes nothing. -/
theorem capNewlines_eq (x : Bytes) : capNewlines x = capFrom 0 x := by
  unfold capNewlines
  split
  · rfl
  · next h =>
    exact (capFrom_of_hasLongRun_eq_false (Nat.zero_le _) (Bool.eq_false_iff.2 h)).symm

/-! ## Line by line -/

/-- The two lines are not both empty. -/
def Apart (l m : Bytes) : Prop := l ≠ [] ∨ m ≠ []

instance : DecidableRel Apart := fun l m => inferInstanceAs (Decidable (l ≠ [] ∨ m ≠ []))

theorem apart_of_left (hl : l ≠ []) (m : Bytes) : Apart l m := Or.inl hl

theorem apart_of_right (l : Bytes) {m : Bytes} (hm : m ≠ []) : Apart l m := Or.inr hm

theorem not_apart_nil : ¬ Apart [] [] := by simp [Apart]

/-- Behind a line that was kept, of which the newlines before the text tell whether it was
empty. -/
theorem cons_brokenLines_capFrom (hrun : run = 1 ∧ l ≠ [] ∨ 2 ≤ run ∧ l = []) (x : Bytes) :
    l :: brokenLines (capFrom run x) = (brokenLines x).destutter' Apart l := by
  induction x using lineInduct generalizing l run with
  | last m hm => rw [capFrom_of_not_mem hm, brokenLines_of_not_mem hm, List.destutter'_nil]
  | line m x hm ih =>
    rw [brokenLines_append_newline hm]
    by_cases hempty : m = []
    · subst hempty
      rw [List.nil_append, capFrom_newline]
      rcases hrun with ⟨rfl, hl⟩ | ⟨hrun, rfl⟩
      · rw [if_pos (by decide), List.destutter'_cons_pos _ (apart_of_left hl []),
          ← ih (Or.inr ⟨le_rfl, rfl⟩)]
        exact congrArg (l :: ·) (brokenLines_append_newline List.not_mem_nil _)
      · rw [if_neg (by omega), List.destutter'_cons_neg _ not_apart_nil]
        exact ih (Or.inr ⟨by omega, rfl⟩)
    · rw [capFrom_append_newline hm hempty, brokenLines_append_newline hm,
        List.destutter'_cons_pos _ (apart_of_right l hempty), ih (Or.inl ⟨rfl, hempty⟩)]

/-- Behind the first line an empty line is kept if it stands behind none. -/
theorem brokenLines_capFrom_one (x : Bytes) :
    brokenLines (capFrom 1 x) = (brokenLines x).destutter Apart := by
  cases x using lineInduct with
  | last m hm => rw [capFrom_of_not_mem hm, brokenLines_of_not_mem hm, List.destutter_nil]
  | line m x hm =>
    rw [brokenLines_append_newline hm, List.destutter_cons']
    by_cases hempty : m = []
    · subst hempty
      rw [List.nil_append, capFrom_newline, if_pos (by decide),
        ← cons_brokenLines_capFrom (Or.inr ⟨le_rfl, rfl⟩)]
      exact brokenLines_append_newline List.not_mem_nil _
    · rw [capFrom_append_newline hm hempty, brokenLines_append_newline hm,
        cons_brokenLines_capFrom (Or.inl ⟨rfl, hempty⟩)]

theorem brokenLines_capNewlines (hl : 10 ∉ l) (x : Bytes) :
    brokenLines (capNewlines (l ++ 10 :: x)) = l :: (brokenLines x).destutter Apart := by
  have hfirst : capFrom 0 (l ++ 10 :: x) = l ++ 10 :: capFrom 1 x := by
    by_cases hempty : l = []
    · subst hempty
      exact capFrom_newline 0 x
    · exact capFrom_append_newline hl hempty 0 x
  rw [capNewlines_eq, hfirst, brokenLines_append_newline hl, brokenLines_capFrom_one]

theorem brokenLines_capNewlines_of_not_mem (hl : 10 ∉ l) :
    brokenLines (capNewlines l) = [] := by
  rw [capNewlines_eq, capFrom_of_not_mem hl, brokenLines_of_not_mem hl]

end DocTree.Text
