set_option autoImplicit false

/-!
# Lines: byte strings as lines

Text is handled as bytes, since the rules for lines speak of single ASCII bytes
only and must not depend on whether the rest is well formed.  `lines` cuts at
every newline; `unlines` is its inverse.
-/

namespace DocTree.Text

/-- A byte string. -/
abbrev Bytes := List UInt8

/-- The byte that ends a line. -/
def newline : UInt8 := 10

/-- Spaces and tabs. -/
def isBlank (b : UInt8) : Bool := b == 32 || b == 9

/-! ## Cutting and joining -/

/-- The lines of a byte string, which are one more than its newlines. -/
def lines : Bytes → List Bytes
  | [] => [[]]
  | b :: bs =>
    if b = newline then [] :: lines bs
    else
      match lines bs with
      | [] => [[b]]
      | l :: ls => (b :: l) :: ls

/-- Joins lines with newlines between them. -/
def unlines : List Bytes → Bytes
  | [] => []
  | [l] => l
  | l :: ls => l ++ newline :: unlines ls

theorem lines_ne_nil (x : Bytes) : lines x ≠ [] := by
  cases x with
  | nil => simp [lines]
  | cons b bs =>
    simp only [lines]
    split
    · simp
    · split <;> simp

theorem lines_cons_of_ne {b : UInt8} (h : b ≠ newline) (bs : Bytes) :
    ∃ l ls, lines bs = l :: ls ∧ lines (b :: bs) = (b :: l) :: ls := by
  match hl : lines bs with
  | [] => exact absurd hl (lines_ne_nil bs)
  | l :: ls =>
    refine ⟨l, ls, rfl, ?_⟩
    simp only [lines, if_neg h, hl]

theorem unlines_lines (x : Bytes) : unlines (lines x) = x := by
  induction x with
  | nil => rfl
  | cons b bs ih =>
    by_cases h : b = newline
    · subst h
      match hl : lines bs with
      | [] => exact absurd hl (lines_ne_nil bs)
      | l :: ls =>
        simp only [lines, if_true, hl, unlines, List.nil_append]
        rw [← hl, ih]
    · obtain ⟨l, ls, hl, hbl⟩ := lines_cons_of_ne h bs
      rw [hbl]
      rw [hl] at ih
      cases ls with
      | nil =>
        simp only [unlines] at ih ⊢
        rw [ih]
      | cons m ms =>
        simp only [unlines, List.cons_append] at ih ⊢
        rw [ih]

theorem newline_not_mem_of_mem_lines {x l : Bytes} (h : l ∈ lines x) : newline ∉ l := by
  induction x generalizing l with
  | nil =>
    simp only [lines, List.mem_singleton] at h
    subst h
    exact List.not_mem_nil
  | cons b bs ih =>
    by_cases hb : b = newline
    · simp only [lines, if_pos hb, List.mem_cons] at h
      rcases h with h | h
      · subst h
        exact List.not_mem_nil
      · exact ih h
    · obtain ⟨m, ms, hm, hbm⟩ := lines_cons_of_ne hb bs
      rw [hbm, List.mem_cons] at h
      rw [hm] at ih
      rcases h with h | h
      · subst h
        intro hn
        rcases List.mem_cons.1 hn with hn | hn
        · exact hb hn.symm
        · exact ih (List.mem_cons_self ..) hn
      · exact ih (List.mem_cons_of_mem _ h)

/-! ## Trimming -/

/-- A line without the spaces and tabs at its ends. -/
def trim (l : Bytes) : Bytes := ((l.dropWhile isBlank).reverse.dropWhile isBlank).reverse

end DocTree.Text
