import DocTree.Text.Quoted
import Mathlib.Tactic.IntervalCases
import Mathlib.Data.List.Basic
set_option autoImplicit false

/-!
# Quoted: quoted text tells what was quoted

The forms of single characters are told apart from the left (`quoteChar_append_inj`), so a
text is known from its quoted form (`quote_injective`), and the quoted form stays on one line
(`newline_not_mem_quote`).
-/

namespace DocTree.Text

/-! ## Up to a separator -/

/-- Before the first separator stands the same on both sides. -/
theorem append_cons_inj {α : Type} {a : α} {xs ys xs' ys' : List α} (hx : a ∉ xs) (hx' : a ∉ xs')
    (h : xs ++ a :: ys = xs' ++ a :: ys') : xs = xs' ∧ ys = ys' := by
  induction xs generalizing xs' with
  | nil =>
    cases xs' with
    | nil => exact ⟨rfl, (List.cons.inj h).2⟩
    | cons b bs => exact absurd ((List.cons.inj h).1 ▸ List.mem_cons_self) hx'
  | cons b bs ih =>
    cases xs' with
    | nil => exact absurd ((List.cons.inj h).1 ▸ List.mem_cons_self) hx
    | cons c cs =>
      obtain ⟨rfl, hrest⟩ := List.cons.inj h
      obtain ⟨rfl, hys⟩ := ih (fun hm => hx (List.mem_cons_of_mem _ hm))
        (fun hm => hx' (List.mem_cons_of_mem _ hm)) hrest
      exact ⟨rfl, hys⟩

/-! ## Hexadecimal digits -/

theorem digitChar_inj {m n : Nat} (hm : m < 16) (hn : n < 16)
    (h : Nat.digitChar m = Nat.digitChar n) : m = n := by
  have hall : ∀ m : Fin 16, ∀ n : Fin 16, Nat.digitChar m = Nat.digitChar n → m = n := by decide
  exact congrArg Fin.val (hall ⟨m, hm⟩ ⟨n, hn⟩ h)

theorem toDigits_inj {m n : Nat} (h : Nat.toDigits 16 m = Nat.toDigits 16 n) : m = n := by
  induction m using Nat.strong_induction_on generalizing n with
  | _ m ih =>
    have hm := @Nat.toDigits_eq_if 16 m (by decide)
    have hn := @Nat.toDigits_eq_if 16 n (by decide)
    by_cases hms : m < 16
    · by_cases hns : n < 16
      · rw [hm, hn, if_pos hms, if_pos hns] at h
        exact digitChar_inj hms hns (List.singleton_inj.1 h)
      · rw [hm, hn, if_pos hms, if_neg hns] at h
        have hlen := congrArg List.length h
        simp at hlen
    · by_cases hns : n < 16
      · rw [hm, hn, if_neg hms, if_pos hns] at h
        have hlen := congrArg List.length h
        simp at hlen
      · rw [hm, hn, if_neg hms, if_neg hns] at h
        obtain ⟨hfront, hlast⟩ := List.append_inj' h rfl
        have hdiv := ih (m / 16) (by omega) hfront
        have hmod := digitChar_inj (Nat.mod_lt _ (by decide)) (Nat.mod_lt _ (by decide))
          (List.singleton_inj.1 hlast)
        omega

theorem not_mem_toDigits {c : Char} (hc : ∀ k < 16, Nat.digitChar k ≠ c) (n : Nat) :
    c ∉ Nat.toDigits 16 n := by
  induction n using Nat.strong_induction_on with
  | _ n ih =>
    rw [@Nat.toDigits_eq_if 16 n (by decide)]
    split
    · next hn => exact fun h => hc n hn (List.mem_singleton.1 h).symm
    · rw [List.mem_append, List.mem_singleton, not_or]
      exact ⟨ih (n / 16) (by omega), fun h => hc _ (Nat.mod_lt _ (by decide)) h.symm⟩

/-! ## Single characters -/

/-- The characters with a name, each with the one that stands for it behind a backslash. -/
def named : List (Char × Char) :=
  [('"', '"'), ('\\', '\\'), ('\n', 'n'), ('\r', 'r'), ('\t', 't'), ('\x00', '0')]

theorem quoteChar_cases (c : Char) :
    quoteChar c = [c] ∧ c ≠ '\\' ∧ c ≠ '"' ∧ c ≠ '\n' ∨
      (∃ k, (c, k) ∈ named ∧ quoteChar c = ['\\', k]) ∨ quoteChar c = byNumber c := by
  unfold quoteChar
  split_ifs with h1 h2 h3 h4 h5 h6 h7
  · exact Or.inr (Or.inl ⟨'"', by simp [named, h1], rfl⟩)
  · exact Or.inr (Or.inl ⟨'\\', by simp [named, h2], rfl⟩)
  · exact Or.inr (Or.inl ⟨'n', by simp [named, h3], rfl⟩)
  · exact Or.inr (Or.inl ⟨'r', by simp [named, h4], rfl⟩)
  · exact Or.inr (Or.inl ⟨'t', by simp [named, h5], rfl⟩)
  · exact Or.inr (Or.inl ⟨'0', by simp [named, h6], rfl⟩)
  · exact Or.inr (Or.inr rfl)
  · exact Or.inl ⟨rfl, h2, h1, h3⟩

/-- A name stands for one character only. -/
theorem named_inj {c d k : Char} (hc : (c, k) ∈ named) (hd : (d, k) ∈ named) : c = d := by
  have hall : ∀ p ∈ named, ∀ q ∈ named, p.2 = q.2 → p.1 = q.1 := by decide
  exact hall _ hc _ hd rfl

theorem ne_of_mem_named {c k : Char} (h : (c, k) ∈ named) : k ≠ 'u' ∧ k ≠ '\n' := by
  have hall : ∀ p ∈ named, p.2 ≠ 'u' ∧ p.2 ≠ '\n' := by decide
  exact hall _ h

theorem byNumber_append_inj {c d : Char} {x y : List Char}
    (h : byNumber c ++ x = byNumber d ++ y) : c = d ∧ x = y := by
  unfold byNumber at h
  simp only [List.append_assoc] at h
  have hclose : ∀ n, '\x7d' ∉ Nat.toDigits 16 n := not_mem_toDigits (by decide)
  obtain ⟨hdigits, hxy⟩ := append_cons_inj (hclose _) (hclose _) (List.append_cancel_left h)
  exact ⟨Char.toNat_inj.1 (toDigits_inj hdigits), hxy⟩

/-- The forms of two characters are told apart from the left. -/
theorem quoteChar_append_inj {c d : Char} {x y : List Char}
    (h : quoteChar c ++ x = quoteChar d ++ y) : c = d ∧ x = y := by
  rcases quoteChar_cases c with ⟨hc, hplain, -⟩ | ⟨k, hk, hc⟩ | hc <;>
    rcases quoteChar_cases d with ⟨hd, hplain', -⟩ | ⟨k', hk', hd⟩ | hd <;> rw [hc, hd] at h
  · exact List.cons.inj h
  · exact absurd (List.cons.inj h).1 hplain
  · exact absurd (List.cons.inj h).1 hplain
  · exact absurd (List.cons.inj h).1.symm hplain'
  · obtain ⟨rfl, hxy⟩ := List.cons.inj (List.cons.inj h).2
    exact ⟨named_inj hk hk', hxy⟩
  · exact absurd (List.cons.inj (List.cons.inj h).2).1 (ne_of_mem_named hk).1
  · exact absurd (List.cons.inj h).1.symm hplain'
  · exact absurd (List.cons.inj (List.cons.inj h).2).1.symm (ne_of_mem_named hk').1
  · exact byNumber_append_inj h

/-- No character is written as the quote that ends the text. -/
theorem head?_quoteChar (c : Char) (x : List Char) : (quoteChar c ++ x).head? ≠ some '"' := by
  rcases quoteChar_cases c with ⟨hc, -, hquote, -⟩ | ⟨k, -, hc⟩ | hc <;> rw [hc]
  · simpa using hquote
  · simp
  · simp [byNumber]

theorem newline_not_mem_quoteChar (c : Char) : '\n' ∉ quoteChar c := by
  rcases quoteChar_cases c with ⟨hc, -, -, hnewline⟩ | ⟨k, hk, hc⟩ | hc <;> rw [hc]
  · simpa using hnewline.symm
  · simpa using (ne_of_mem_named hk).2.symm
  · simpa [byNumber] using not_mem_toDigits (by decide) c.toNat

/-! ## Quoted texts -/

theorem quoteChars_injective : Function.Injective quoteChars := by
  intro cs ds h
  induction cs generalizing ds with
  | nil =>
    cases ds with
    | nil => rfl
    | cons d ds => exact absurd (congrArg List.head? h.symm) (head?_quoteChar d _)
  | cons c cs ih =>
    cases ds with
    | nil => exact absurd (congrArg List.head? h) (head?_quoteChar c _)
    | cons d ds =>
      obtain ⟨rfl, hrest⟩ := quoteChar_append_inj h
      rw [ih hrest]

/-- A text is known from its quoted form. -/
theorem quote_injective : Function.Injective quote := by
  intro s t h
  have hchars := List.cons.inj (String.ofList_injective h)
  exact String.toList_inj.1 (quoteChars_injective hchars.2)

theorem newline_not_mem_quoteChars (cs : List Char) : '\n' ∉ quoteChars cs := by
  induction cs with
  | nil => decide
  | cons c cs ih =>
    rw [quoteChars, List.mem_append, not_or]
    exact ⟨newline_not_mem_quoteChar c, ih⟩

/-- Whatever is quoted, its quoted form stays on one line. -/
theorem newline_not_mem_quote (s : String) : '\n' ∉ (quote s).toList := by
  rw [quote, String.toList_ofList, List.mem_cons, not_or]
  exact ⟨by decide, newline_not_mem_quoteChars _⟩

end DocTree.Text
