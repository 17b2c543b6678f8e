import DocTree.Text.Lines
import Mathlib.Data.List.DropRight
import Mathlib.Data.List.TakeWhile
set_option autoImplicit false

/-!
# Lines: texts taken apart line by line

Every text is a last line, or a line, a newline and another text.  `lineInduct` argues along
this: `brokenLines` are the lines that a newline ends, and `lastLine` is the one behind
them.
-/

namespace DocTree.Text

variable {l x y : Bytes}

/-! ## Lines of joined texts -/

/-- A newline is the byte 10.  The statements say 10, whatever name the cutting uses. -/
@[simp] theorem newline_eq : newline = 10 := rfl

@[simp] theorem lines_of_not_mem (h : 10 ∉ l) : lines l = [l] := by
  induction l with
  | nil => rfl
  | cons b bs ih =>
    rw [List.mem_cons, not_or] at h
    simp only [lines, newline_eq, if_neg (Ne.symm h.1), ih h.2]

@[simp] theorem lines_append_newline (h : 10 ∉ l) (x : Bytes) :
    lines (l ++ 10 :: x) = l :: lines x := by
  induction l with
  | nil => simp only [List.nil_append, lines, newline_eq, if_true]
  | cons b bs ih =>
    rw [List.mem_cons, not_or] at h
    simp only [List.cons_append, lines, newline_eq, if_neg (Ne.symm h.1), ih h.2]

/-- What holds of every line without a newline, and of a text behind such a line if it holds
of the text, holds of every text. -/
@[elab_as_elim]
theorem lineInduct {motive : Bytes → Prop} (last : ∀ l, 10 ∉ l → motive l)
    (line : ∀ l x, 10 ∉ l → motive x → motive (l ++ 10 :: x)) : ∀ x, motive x := by
  have hjoined : ∀ ls : List Bytes, ls ≠ [] → (∀ l ∈ ls, 10 ∉ l) →
      motive (unlines ls) := by
    intro ls hne hls
    induction ls with
    | nil => exact absurd rfl hne
    | cons l ls ih =>
      have hl := hls l List.mem_cons_self
      cases ls with
      | nil => exact last l hl
      | cons m ms =>
        exact line l _ hl
          (ih (List.cons_ne_nil _ _) fun k hk => hls k (List.mem_cons_of_mem _ hk))
  intro x
  have hx := hjoined (lines x) (lines_ne_nil x) fun l => newline_not_mem_of_mem_lines
  rwa [unlines_lines] at hx

theorem lines_eq_splitOn (x : Bytes) : lines x = x.splitOn 10 := by
  induction x using lineInduct with
  | last l hl => rw [lines_of_not_mem hl, List.splitOn_eq_singleton hl]
  | line l x hl ih =>
    rw [lines_append_newline hl, List.splitOn_append_cons_self_of_not_mem hl, ih]

/-! ## Broken lines and the last one -/

/-- The lines that a newline ends. -/
def brokenLines (x : Bytes) : List Bytes := (x.splitOn 10).dropLast

/-- The line behind the last newline. -/
def lastLine (x : Bytes) : Bytes := (x.splitOn 10).getLast (List.splitOn_ne_nil 10 x)

theorem lines_eq (x : Bytes) : lines x = brokenLines x ++ [lastLine x] := by
  rw [lines_eq_splitOn]
  exact (List.dropLast_concat_getLast _).symm

@[simp] theorem brokenLines_of_not_mem (h : 10 ∉ l) : brokenLines l = [] := by
  rw [brokenLines, List.splitOn_eq_singleton h, List.dropLast_singleton]

@[simp] theorem lastLine_of_not_mem (h : 10 ∉ l) : lastLine l = l := by
  simp only [lastLine, List.splitOn_eq_singleton h, List.getLast_singleton]

@[simp] theorem brokenLines_append_newline (h : 10 ∉ l) (x : Bytes) :
    brokenLines (l ++ 10 :: x) = l :: brokenLines x := by
  rw [brokenLines, List.splitOn_append_cons_self_of_not_mem h,
    List.dropLast_cons_of_ne_nil (List.splitOn_ne_nil 10 x), brokenLines]

@[simp] theorem lastLine_append_newline (h : 10 ∉ l) (x : Bytes) :
    lastLine (l ++ 10 :: x) = lastLine x := by
  simp only [lastLine, List.splitOn_append_cons_self_of_not_mem h,
    List.getLast_cons (List.splitOn_ne_nil 10 x)]

theorem length_brokenLines (x : Bytes) : (brokenLines x).length = x.count 10 := by
  induction x using lineInduct with
  | last l hl => rw [brokenLines_of_not_mem hl, List.count_eq_zero.2 hl, List.length_nil]
  | line l x hl ih =>
    rw [brokenLines_append_newline hl, List.length_cons, ih, List.count_append,
      List.count_eq_zero.2 hl, List.count_cons_self, Nat.zero_add]

/-- Any newline ends a line. -/
theorem brokenLines_append_cons (x y : Bytes) :
    brokenLines (x ++ 10 :: y) = brokenLines x ++ lastLine x :: brokenLines y := by
  induction x using lineInduct with
  | last l hl =>
    rw [brokenLines_append_newline hl, brokenLines_of_not_mem hl, lastLine_of_not_mem hl,
      List.nil_append]
  | line l x hl ih =>
    rw [List.append_assoc, List.cons_append, brokenLines_append_newline hl, ih,
      brokenLines_append_newline hl, lastLine_append_newline hl, List.cons_append]

/-- Between two adjacent newlines stands an empty line. -/
theorem nil_mem_brokenLines_of_adjacent (h : [10, 10] <:+: x) : [] ∈ brokenLines x := by
  obtain ⟨y, z, rfl⟩ := h
  have hz : brokenLines (10 :: z) = [] :: brokenLines z :=
    brokenLines_append_newline List.not_mem_nil z
  rw [List.append_assoc, List.cons_append, brokenLines_append_cons, List.singleton_append, hz]
  simp

/-! ## Blanks at the ends of a line -/

@[simp] theorem isBlank_iff {b : UInt8} : isBlank b = true ↔ b = 32 ∨ b = 9 := by
  simp [isBlank]

@[simp] theorem isBlank_eq_false_iff {b : UInt8} : isBlank b = false ↔ b ≠ 32 ∧ b ≠ 9 := by
  simp [isBlank]

theorem isBlank_iff_toNat {b : UInt8} : isBlank b = true ↔ b.toNat = 32 ∨ b.toNat = 9 := by
  simp [← UInt8.toNat_inj]

theorem toNat_lt_of_isBlank {b : UInt8} (h : isBlank b = true) : b.toNat < 128 := by
  rw [isBlank_iff_toNat] at h
  omega

theorem trim_eq (l : Bytes) : trim l = (l.dropWhile isBlank).rdropWhile isBlank := rfl

/-- Trimming takes nothing out of the middle. -/
theorem trim_isInfix (l : Bytes) : trim l <:+: l :=
  (List.rdropWhile_prefix isBlank _).isInfix.trans (List.dropWhile_suffix isBlank).isInfix

/-- A line is what is left of it after trimming, between spaces and tabs. -/
theorem exists_eq_append_trim (l : Bytes) : ∃ p q, l = p ++ trim l ++ q ∧
    (∀ b ∈ p, isBlank b = true) ∧ ∀ b ∈ q, isBlank b = true := by
  refine ⟨l.takeWhile isBlank, (l.dropWhile isBlank).rtakeWhile isBlank, ?_, fun b hb =>
    List.mem_takeWhile_imp hb, fun b hb => List.mem_rtakeWhile_imp hb⟩
  rw [trim_eq, List.append_assoc, List.rdropWhile_append_rtakeWhile,
    List.takeWhile_append_dropWhile]

theorem newline_not_mem_trim (h : 10 ∉ l) : 10 ∉ trim l := fun hmem =>
  h ((trim_isInfix l).subset hmem)

/-- A line of which nothing is left holds only spaces and tabs. -/
theorem trim_eq_nil_iff : trim l = [] ↔ ∀ b ∈ l, b = 32 ∨ b = 9 := by
  have hall : trim l = [] ↔ ∀ b ∈ l, isBlank b = true := by
    rw [trim_eq, List.rdropWhile_eq_nil_iff, ← List.dropWhile_eq_nil_iff,
      ← List.dropWhile_eq_nil_iff, List.dropWhile_idempotent]
  simpa using hall

/-- `s` is what is left of the line `l` without the spaces and tabs at its ends. -/
structure Stripped (l s : Bytes) : Prop where
  split : ∃ p q, l = p ++ s ++ q ∧ (∀ b ∈ p, b = 32 ∨ b = 9) ∧ ∀ b ∈ q, b = 32 ∨ b = 9
  head : ∀ b ∈ s.head?, b ≠ 32 ∧ b ≠ 9
  last : ∀ b ∈ s.getLast?, b ≠ 32 ∧ b ≠ 9

theorem stripped_trim (l : Bytes) : Stripped l (trim l) where
  split := by simpa using exists_eq_append_trim l
  head := by
    intro b hb
    obtain ⟨q, hq⟩ : trim l <+: l.dropWhile isBlank := List.rdropWhile_prefix isBlank _
    have hhead := List.head?_dropWhile_not isBlank l
    rw [← hq, List.head?_append, hb] at hhead
    simpa using hhead
  last := by
    intro b hb
    have hne : trim l ≠ [] := by
      rintro hnil
      rw [hnil] at hb
      cases hb
    rw [Option.mem_def, List.getLast?_eq_some_getLast hne] at hb
    rw [← Option.some.inj hb, ← isBlank_eq_false_iff]
    exact Bool.eq_false_iff.2 (List.rdropWhile_last_not isBlank _ hne)

theorem Stripped.exists_not_blank {s : Bytes} (h : Stripped l s) (hne : s ≠ []) :
    ∃ b ∈ s, b ≠ 32 ∧ b ≠ 9 := by
  cases s with
  | nil => exact absurd rfl hne
  | cons b bs => exact ⟨b, List.mem_cons_self, h.head b rfl⟩

end DocTree.Text
