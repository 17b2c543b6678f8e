import DocTree.Proofs.Text.Newlines
set_option autoImplicit false

/-!
# Capped: runs of newlines, one run after another

`Capped x y` says what shortening runs of newlines is meant to do: `y` is `x` with each whole
run of newlines cut to two.  `capNewlines` counts newlines while it goes through the
bytes, or leaves the text alone if it finds no long run at once; either way it does just that
(`capNewlines_caps`).
-/

namespace DocTree.Text

variable {x y : Bytes} {run : Nat}

/-- `y` is `x` with at most two newlines of each run of newlines.  A run ends where no
newline follows, and none stands before it because each rule reads up to the end of a run or of
another byte. -/
inductive Capped : Bytes → Bytes → Prop where
  | nil : Capped [] []
  | byte {b : UInt8} {x y : Bytes} (hb : b ≠ 10) (hrest : Capped x y) :
    Capped (b :: x) (b :: y)
  | run {k : Nat} {x y : Bytes} (hk : 0 < k) (hend : x.head? ≠ some 10)
    (hrest : Capped x y) :
    Capped (List.replicate k 10 ++ x) (List.replicate (min k 2) 10 ++ y)

/-! ## The pass over all bytes -/

/-- Of a run of newlines as many are kept as the newlines before it leave room for. -/
theorem capFrom_replicate_append (run k : Nat) (x : Bytes) :
    capFrom run (List.replicate k 10 ++ x) =
      List.replicate (min k (2 - run)) 10 ++ capFrom (run + k) x := by
  induction k generalizing run with
  | zero => simp
  | succ k ih =>
    rw [List.replicate_succ, List.cons_append, capFrom_newline, ih]
    have hcount : run + 1 + k = run + (k + 1) := by omega
    rw [hcount]
    split
    · next h =>
      have hkept : min (k + 1) (2 - run) = min k (2 - (run + 1)) + 1 := by omega
      rw [hkept, List.replicate_succ, List.cons_append]
    · next h =>
      have hkept : min (k + 1) (2 - run) = min k (2 - (run + 1)) := by omega
      rw [hkept]

/-- The newlines before a text do not matter if it begins otherwise. -/
theorem capFrom_of_head?_ne (h : x.head? ≠ some 10) (run : Nat) :
    capFrom run x = capFrom 0 x := by
  cases x with
  | nil => rfl
  | cons b bs =>
    have hb : b ≠ 10 := fun hb => h (congrArg some hb)
    rw [capFrom_cons_of_ne hb, capFrom_cons_of_ne hb]

/-- A whole run at the front. -/
theorem capFrom_run (h : x.head? ≠ some 10) (k : Nat) :
    capFrom 0 (List.replicate k 10 ++ x) = List.replicate (min k 2) 10 ++ capFrom 0 x := by
  rw [capFrom_replicate_append, Nat.sub_zero, capFrom_of_head?_ne h]

theorem Capped.eq_capFrom (h : Capped x y) : y = capFrom 0 x := by
  induction h with
  | nil => rfl
  | byte hb _ ih => rw [capFrom_cons_of_ne hb, ih]
  | run _ hend _ ih => rw [capFrom_run hend, ih]

/-- The newlines at the front of a text are a run. -/
theorem exists_eq_replicate_append (x : Bytes) :
    ∃ k rest, x = List.replicate k 10 ++ rest ∧ rest.head? ≠ some 10 := by
  induction x with
  | nil => exact ⟨0, [], rfl, by simp⟩
  | cons b bs ih =>
    by_cases hb : b = 10
    · subst hb
      obtain ⟨k, rest, rfl, hrest⟩ := ih
      exact ⟨k + 1, rest, by rw [List.replicate_succ, List.cons_append], hrest⟩
    · exact ⟨0, b :: bs, rfl, by simpa using hb⟩

/-- Every text falls into runs of newlines and other bytes. -/
theorem capped_capFrom (x : Bytes) : Capped x (capFrom 0 x) := by
  generalize hlen : x.length = n
  induction n using Nat.strong_induction_on generalizing x with
  | h n ih =>
    obtain ⟨k, rest, rfl, hrest⟩ := exists_eq_replicate_append x
    rw [List.length_append, List.length_replicate] at hlen
    by_cases hk : 0 < k
    · rw [capFrom_run hrest]
      exact .run hk hrest (ih rest.length (by omega) rest rfl)
    · obtain rfl : k = 0 := by omega
      rw [List.replicate_zero, List.nil_append]
      cases rest with
      | nil => exact .nil
      | cons b bs =>
        have hb : b ≠ 10 := fun hb => hrest (congrArg some hb)
        rw [List.length_cons] at hlen
        rw [capFrom_cons_of_ne hb]
        exact .byte hb (ih bs.length (by omega) bs rfl)

theorem capped_iff : Capped x y ↔ capNewlines x = y := by
  rw [capNewlines_eq]
  constructor
  · exact fun h => h.eq_capFrom.symm
  · rintro rfl
    exact capped_capFrom x

/-! ## No long run is left -/

/-- Before another byte there is no long run if the newlines before it are no more than two. -/
theorem not_longRun_prefix_of_le {b : UInt8} (hb : b ≠ 10) (hrun : run ≤ 2) (x : Bytes) :
    ¬ [10, 10, 10] <+: List.replicate run 10 ++ b :: x := by
  obtain rfl | rfl | rfl : run = 0 ∨ run = 1 ∨ run = 2 := by omega
  all_goals simp [List.replicate_succ, hb.symm]

theorem hasLongRun_cons_of_short {b : UInt8} (h : ¬ [10, 10, 10] <+: b :: x) :
    hasLongRun (b :: x) = hasLongRun x := by
  rw [hasLongRun, longRun_eq,
    Bool.eq_false_iff.2 fun hpre => h (List.isPrefixOf_iff_prefix.1 hpre), Bool.false_or]

/-- A short run before another byte does not add to a long run. -/
theorem hasLongRun_replicate_append_cons {b : UInt8} (hrun : run ≤ 2) (hb : b ≠ 10)
    (x : Bytes) : hasLongRun (List.replicate run 10 ++ b :: x) = hasLongRun x := by
  induction run with
  | zero => exact hasLongRun_cons_of_short (not_longRun_prefix_of_le hb hrun x)
  | succ run ih =>
    have hshort := not_longRun_prefix_of_le hb hrun x
    rw [List.replicate_succ, List.cons_append] at hshort ⊢
    rw [hasLongRun_cons_of_short hshort, ih (Nat.le_of_succ_le hrun)]

/-- What is kept behind some newlines makes no long run with those of them that were kept. -/
theorem hasLongRun_capFrom (run : Nat) (x : Bytes) :
    hasLongRun (List.replicate (min run 2) 10 ++ capFrom run x) = false := by
  induction x generalizing run with
  | nil =>
    rw [capFrom_nil, List.append_nil, Bool.eq_false_iff, Ne, hasLongRun_iff]
    intro h
    have hle := h.length_le
    simp only [List.length_cons, List.length_nil, List.length_replicate] at hle
    omega
  | cons b bs ih =>
    by_cases hb : b = 10
    · subst hb
      have hnext := ih (run + 1)
      rw [capFrom_newline]
      split
      · next h =>
        have hmin : min (run + 1) 2 = min run 2 + 1 := by omega
        rw [hmin, List.replicate_succ', List.append_assoc] at hnext
        exact hnext
      · next h =>
        have hmin : min (run + 1) 2 = min run 2 := by omega
        rwa [hmin] at hnext
    · rw [capFrom_cons_of_ne hb, hasLongRun_replicate_append_cons (Nat.min_le_right _ _) hb]
      simpa using ih 0

theorem not_longRun_capNewlines (x : Bytes) :
    ¬ [10, 10, 10] <:+: capNewlines x := by
  rw [← hasLongRun_iff, capNewlines_eq]
  simpa using hasLongRun_capFrom 0 x

theorem capNewlines_eq_self_iff :
    capNewlines x = x ↔ ¬ [10, 10, 10] <:+: x := by
  constructor
  · intro h
    rw [← h]
    exact not_longRun_capNewlines x
  · exact capNewlines_of_short_runs

/-- Each run of newlines is cut to two and every other byte is kept.  Leaving a text alone in
which no long run is found gives what counting would give.  No long run is left, so only texts
with one are changed, and no text is changed twice. -/
theorem capNewlines_caps (x : Bytes) :
    (∀ y, Capped x y ↔ capNewlines x = y) ∧
    (hasLongRun x = true ↔ [10, 10, 10] <:+: x) ∧
    capNewlines x = capFrom 0 x ∧
    ¬ [10, 10, 10] <:+: capNewlines x ∧
    (capNewlines x = x ↔ ¬ [10, 10, 10] <:+: x) ∧
    capNewlines (capNewlines x) = capNewlines x :=
  ⟨fun _ => capped_iff, hasLongRun_iff, capNewlines_eq x, not_longRun_capNewlines x,
    capNewlines_eq_self_iff, capNewlines_of_short_runs (not_longRun_capNewlines x)⟩

/-- Runs at the start, inside and at the end, and single newlines between other bytes. -/
example : capNewlines [10, 10, 10, 97, 10, 98, 10, 10, 10, 10] = [10, 10, 97, 10, 98, 10, 10] := by
  decide

end DocTree.Text
