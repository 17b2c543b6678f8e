import DocTree.Proofs.Text.Lines
import DocTree.Text.Utf8
import Mathlib.Tactic.IntervalCases
set_option autoImplicit false

/-!
# Utf8: what is read of bytes

The bytes of a text are read back as this text (`decode?_encode`).  In any bytes, those of a
text or not, a byte below 128 is a character of its own and cuts what is read in two
(`decodeFrom_append_cons`), and a space or a tab is read where its byte stands only
(`exists_of_decodeFrom_eq_append`).  So trimming bytes is trimming what is read of them
(`decodeParts_trim`).
-/

namespace DocTree.Text

/-! ## Reading back one character -/

theorem beginChar_one {n : Nat} (h : n < 128) :
    beginChar (UInt8.ofNat n) = ([some (Char.ofNat n)], none) := by
  have hn := UInt8.toNat_ofNat_of_lt' (show n < 256 by omega)
  unfold beginChar
  rw [if_pos (UInt8.lt_iff_toNat_lt.2 (by rw [hn]; exact h)), hn]

theorem beginChar_two {n : Nat} (hlow : 194 ≤ n) (hhigh : n < 224) :
    beginChar (UInt8.ofNat n) = ([], some ⟨n % 32, 0, 0x80, 0xBF⟩) := by
  have hn := UInt8.toNat_ofNat_of_lt' (show n < 256 by omega)
  unfold beginChar
  simp only [UInt8.lt_iff_toNat_lt, hn]
  rw [if_neg (by simp; omega), if_neg (by simp; omega), if_pos (by simp; omega)]

theorem beginChar_three {n : Nat} (hlow : 224 ≤ n) (hhigh : n < 240) :
    beginChar (UInt8.ofNat n) = ([], some ⟨n % 16, 1, if n = 224 then 0xA0 else 0x80,
      if n = 237 then 0x9F else 0xBF⟩) := by
  interval_cases n <;> rfl

theorem beginChar_four {n : Nat} (hlow : 240 ≤ n) (hhigh : n < 245) :
    beginChar (UInt8.ofNat n) = ([], some ⟨n % 8, 2, if n = 240 then 0x90 else 0x80,
      if n = 244 then 0x8F else 0xBF⟩) := by
  interval_cases n <;> rfl

/-- The other bytes begin no character. -/
theorem beginChar_absent {n : Nat} (hn : n < 256) (h : 128 ≤ n ∧ n < 194 ∨ 245 ≤ n) :
    beginChar (UInt8.ofNat n) = ([none], none) := by
  rcases h with ⟨hlow, hhigh⟩ | hlow
  · have hn := UInt8.toNat_ofNat_of_lt' hn
    unfold beginChar
    simp only [UInt8.lt_iff_toNat_lt, hn]
    rw [if_neg (by simp; omega), if_pos (by simp; omega)]
  · interval_cases n <;> rfl

section Continue

variable {code missing r : Nat} {low high : UInt8}

/-- A byte in range is a further digit of the character's number. -/
theorem continueChar_of_le (hr : r < 64) (hlow : low.toNat ≤ r + 128)
    (hhigh : r + 128 ≤ high.toNat) :
    continueChar ⟨code, missing, low, high⟩ (UInt8.ofNat (r + 128)) =
      match missing with
      | 0 => ([some (Char.ofNat (code * 64 + r))], none)
      | missing + 1 => ([], some ⟨code * 64 + r, missing, 0x80, 0xBF⟩) := by
  have hn := UInt8.toNat_ofNat_of_lt' (show r + 128 < 256 by omega)
  have hmod : (r + 128) % 64 = r := by omega
  unfold continueChar
  rw [if_pos (by rw [UInt8.le_iff_toNat_le, UInt8.le_iff_toNat_le, hn]; exact ⟨hlow, hhigh⟩)]
  cases missing <;> rw [hn, hmod]

theorem decodeFrom_last (hr : r < 64) (hlow : low.toNat ≤ r + 128)
    (hhigh : r + 128 ≤ high.toNat) (rest : Bytes) :
    decodeFrom (some ⟨code, 0, low, high⟩) (UInt8.ofNat (r + 128) :: rest) =
      some (Char.ofNat (code * 64 + r)) :: decodeFrom none rest := by
  rw [decodeFrom, continueChar_of_le hr hlow hhigh]
  rfl

theorem decodeFrom_inner (hr : r < 64) (hlow : low.toNat ≤ r + 128)
    (hhigh : r + 128 ≤ high.toNat) (rest : Bytes) :
    decodeFrom (some ⟨code, missing + 1, low, high⟩) (UInt8.ofNat (r + 128) :: rest) =
      decodeFrom (some ⟨code * 64 + r, missing, 0x80, 0xBF⟩) rest := by
  rw [decodeFrom, continueChar_of_le hr hlow hhigh]
  rfl

end Continue

/-- The bytes of a character are read as this character. -/
theorem decodeFrom_utf8EncodeChar (c : Char) (rest : Bytes) :
    decodeFrom none (String.utf8EncodeChar c ++ rest) = some c :: decodeFrom none rest := by
  have hvalid : c.val.toNat < 0xD800 ∨ 0xDFFF < c.val.toNat ∧ c.val.toNat < 0x110000 := c.valid
  have hc : Char.ofNat c.val.toNat = c := Char.ofNat_toNat c
  unfold String.utf8EncodeChar
  dsimp only
  generalize c.val.toNat = v at hvalid hc
  split_ifs with h1 h2 h3
  · rw [List.singleton_append, decodeFrom, beginChar_one (by omega), hc]
    rfl
  · rw [List.cons_append, decodeFrom, beginChar_two (by omega) (by omega), List.nil_append,
      List.singleton_append, decodeFrom_last (by omega) (by simp) (by simp; omega)]
    have hv : (v / 64 % 32 + 192) % 32 * 64 + v % 64 = v := by omega
    rw [hv, hc]
  · rw [List.cons_append, decodeFrom, beginChar_three (by omega) (by omega), List.nil_append,
      List.cons_append,
      decodeFrom_inner (by omega) (by split <;> simp; omega) (by split <;> simp <;> omega),
      List.singleton_append, decodeFrom_last (by omega) (by simp) (by simp; omega)]
    have hv : ((v / 4096 % 16 + 224) % 16 * 64 + v / 64 % 64) * 64 + v % 64 = v := by omega
    rw [hv, hc]
  · rw [List.cons_append, decodeFrom, beginChar_four (by omega) (by omega), List.nil_append,
      List.cons_append,
      decodeFrom_inner (by omega) (by split <;> simp; omega) (by split <;> simp <;> omega),
      List.cons_append, decodeFrom_inner (by omega) (by simp) (by simp; omega),
      List.singleton_append, decodeFrom_last (by omega) (by simp) (by simp; omega)]
    have hv : (((v / 262144 % 8 + 240) % 8 * 64 + v / 4096 % 64) * 64 + v / 64 % 64) * 64 +
        v % 64 = v := by omega
    rw [hv, hc]

/-! ## Reading back a text -/

theorem encode_cons (c : Char) (cs : List Char) :
    encode (c :: cs) = String.utf8EncodeChar c ++ encode cs := List.flatMap_cons

@[simp] theorem decodeParts_encode (cs : List Char) : decodeParts (encode cs) = cs.map some := by
  induction cs with
  | nil => rfl
  | cons c cs ih =>
    rw [encode_cons, decodeParts, decodeFrom_utf8EncodeChar, List.map_cons]
    exact congrArg (some c :: ·) ih

@[simp] theorem mapM_id_map_some {α : Type} (as : List α) : (as.map some).mapM id = some as := by
  induction as with
  | nil => rfl
  | cons a as ih => simp [List.mapM_cons, ih]

@[simp] theorem decode?_encode (cs : List Char) : decode? (encode cs) = some cs := by
  rw [decode?, decodeParts_encode, mapM_id_map_some]

/-! ## What one more byte means -/

variable {b : UInt8} {c : Option Char} {state : Option Unfinished} {x : Bytes}
  {ps qs : List (Option Char)}

/-- What holds of every character begun: neither the byte that comes next nor the number that
is read in the end lies below 128. -/
structure Unfinished.Wide (u : Unfinished) : Prop where
  low : 0x80 ≤ u.low.toNat
  high : u.high.toNat ≤ 0xBF
  code : 2 ≤ u.code ∨ 0 < u.missing ∧ 2 ≤ u.code * 64 + u.low.toNat % 64

theorem beginChar_cases (b : UInt8) :
    b.toNat < 128 ∧ beginChar b = ([some (Char.ofNat b.toNat)], none) ∨
      128 ≤ b.toNat ∧ (beginChar b = ([none], none) ∨
        ∃ u, u.Wide ∧ beginChar b = ([], some u)) := by
  obtain ⟨n, hn, rfl⟩ : ∃ n, n < 256 ∧ b = UInt8.ofNat n :=
    ⟨b.toNat, b.toNat_lt, UInt8.ofNat_toNat.symm⟩
  rw [UInt8.toNat_ofNat_of_lt' hn]
  by_cases hone : n < 128
  · exact Or.inl ⟨hone, beginChar_one hone⟩
  refine Or.inr ⟨by omega, ?_⟩
  by_cases habsent : n < 194 ∨ 245 ≤ n
  · exact Or.inl (beginChar_absent hn (by omega))
  refine Or.inr ?_
  by_cases htwo : n < 224
  · refine ⟨_, ⟨by simp, by simp, ?_⟩, beginChar_two (by omega) htwo⟩
    exact Or.inl (by dsimp only; omega)
  by_cases hthree : n < 240
  · refine ⟨_, ⟨?_, ?_, ?_⟩, beginChar_three (by omega) hthree⟩
    · dsimp only
      split <;> simp
    · dsimp only
      split <;> simp
    · dsimp only
      split <;> simp
      omega
  · refine ⟨_, ⟨?_, ?_, ?_⟩, beginChar_four (by omega) (by omega)⟩
    · dsimp only
      split <;> simp
    · dsimp only
      split <;> simp
    · dsimp only
      split <;> simp
      omega

theorem Unfinished.Wide.continueChar_cases {u : Unfinished} (hu : u.Wide) (b : UInt8) :
    128 ≤ b.toNat ∧ ((∃ n, 128 ≤ n ∧ continueChar u b = ([some (Char.ofNat n)], none)) ∨
        ∃ v, v.Wide ∧ continueChar u b = ([], some v)) ∨
      continueChar u b = (none :: (beginChar b).1, (beginChar b).2) := by
  obtain ⟨hlow, hhigh, hcode⟩ := hu
  unfold continueChar
  simp only [UInt8.le_iff_toNat_le]
  split_ifs with hrange
  · refine Or.inl ⟨by omega, ?_⟩
    split
    · exact Or.inl ⟨_, by omega, rfl⟩
    · refine Or.inr ⟨_, ⟨by simp, by simp, Or.inl ?_⟩, rfl⟩
      dsimp only
      omega
  · exact Or.inr rfl

/-- What a byte means, behind an unfinished character or not. -/
def readByte : Option Unfinished → UInt8 → Reading
  | none, b => beginChar b
  | some u, b => continueChar u b

theorem decodeFrom_cons (state : Option Unfinished) (b : UInt8) (x : Bytes) :
    decodeFrom state (b :: x) =
      (readByte state b).1 ++ decodeFrom (readByte state b).2 x := by
  cases state <;> rfl

theorem wide_beginChar (b : UInt8) : ∀ u ∈ (beginChar b).2, u.Wide := by
  rcases beginChar_cases b with ⟨-, h⟩ | ⟨-, h | ⟨u, hu, h⟩⟩ <;> rw [h]
  · simp
  · simp
  · rintro v ⟨⟩
    exact hu

theorem wide_readByte (hstate : ∀ u ∈ state, u.Wide) (b : UInt8) :
    ∀ u ∈ (readByte state b).2, u.Wide := by
  cases state with
  | none => exact wide_beginChar b
  | some u =>
    rw [readByte]
    rcases (hstate u rfl).continueChar_cases b with ⟨-, ⟨n, -, h⟩ | ⟨v, hv, h⟩⟩ | h <;> rw [h]
    · simp
    · rintro w ⟨⟩
      exact hv
    · exact wide_beginChar b

/-- A byte below 128 ends an unfinished character and is a character of its own. -/
theorem readByte_of_lt (hstate : ∀ u ∈ state, u.Wide) (hb : b.toNat < 128) :
    readByte state b = (decodeFrom state [] ++ [some (Char.ofNat b.toNat)], none) := by
  have hbegin : beginChar b = ([some (Char.ofNat b.toNat)], none) := by
    rcases beginChar_cases b with ⟨-, h⟩ | ⟨hle, -⟩
    · exact h
    · omega
  cases state with
  | none => exact hbegin
  | some u =>
    rcases (hstate u rfl).continueChar_cases b with ⟨hle, -⟩ | h
    · omega
    · rw [readByte, h, hbegin]
      rfl

/-- A byte below 128 cuts what is read in two. -/
theorem decodeFrom_append_cons (hstate : ∀ u ∈ state, u.Wide) (hb : b.toNat < 128)
    (x y : Bytes) : decodeFrom state (x ++ b :: y) =
      decodeFrom state x ++ some (Char.ofNat b.toNat) :: decodeFrom none y := by
  induction x generalizing state with
  | nil =>
    rw [List.nil_append, decodeFrom_cons, readByte_of_lt hstate hb, List.append_assoc,
      List.singleton_append]
  | cons a x ih =>
    rw [List.cons_append, decodeFrom_cons, ih (wide_readByte hstate a), decodeFrom_cons,
      List.append_assoc]

theorem decodeFrom_some_ne_nil (u : Unfinished) (x : Bytes) : decodeFrom (some u) x ≠ [] := by
  induction x generalizing u with
  | nil => exact List.cons_ne_nil _ _
  | cons b x ih =>
    rw [decodeFrom_cons, readByte, continueChar]
    split_ifs
    · dsimp only
      split
      · exact List.cons_ne_nil _ _
      · exact ih _
    · exact List.cons_ne_nil _ _

theorem decodeParts_eq_nil_iff : decodeParts x = [] ↔ x = [] := by
  refine ⟨fun h => ?_, by rintro rfl; rfl⟩
  cases x with
  | nil => rfl
  | cons b x =>
    rw [decodeParts, decodeFrom_cons, readByte] at h
    rcases beginChar_cases b with ⟨-, hb⟩ | ⟨-, hb | ⟨u, -, hb⟩⟩ <;> rw [hb] at h
    · exact absurd h (List.cons_ne_nil _ _)
    · exact absurd h (List.cons_ne_nil _ _)
    · exact absurd h (decodeFrom_some_ne_nil u x)

/-! ## Spaces and tabs -/

/-- A space or a tab was read. -/
def isBlankPart (c : Option Char) : Bool := c == some ' ' || c == some '\t'

@[simp] theorem isBlankPart_none : isBlankPart none = false := rfl

theorem ofNat_eq_iff {n : Nat} {k : Char} (hk : k.toNat ≠ 0) :
    Char.ofNat n = k ↔ n = k.toNat := by
  constructor
  · rintro rfl
    unfold Char.ofNat at hk ⊢
    by_cases hvalid : n.isValidChar
    · rw [dif_pos hvalid]
      rfl
    · rw [dif_neg hvalid] at hk
      exact absurd rfl hk
  · rintro rfl
    exact Char.ofNat_toNat k

theorem isBlankPart_ofNat_iff (n : Nat) :
    isBlankPart (some (Char.ofNat n)) = true ↔ n = 32 ∨ n = 9 := by
  simp only [isBlankPart, Bool.or_eq_true, beq_iff_eq, Option.some.injEq]
  rw [ofNat_eq_iff (by decide), ofNat_eq_iff (by decide)]
  rfl

theorem isBlankPart_of_isBlank (hb : isBlank b = true) :
    isBlankPart (some (Char.ofNat b.toNat)) = true :=
  (isBlankPart_ofNat_iff _).2 (isBlank_iff_toNat.1 hb)

theorem isBlank_of_mem_beginChar (hc : c ∈ (beginChar b).1) (hblank : isBlankPart c = true) :
    isBlank b = true := by
  rcases beginChar_cases b with ⟨-, h⟩ | ⟨-, h | ⟨u, -, h⟩⟩ <;> rw [h] at hc
  · rw [List.mem_singleton.1 hc, isBlankPart_ofNat_iff] at hblank
    exact isBlank_iff_toNat.2 hblank
  · rw [List.mem_singleton.1 hc, isBlankPart_none] at hblank
    cases hblank
  · exact absurd hc List.not_mem_nil

/-- No number of several bytes is that of a space or a tab. -/
theorem isBlank_of_mem_readByte (hstate : ∀ u ∈ state, u.Wide) (hc : c ∈ (readByte state b).1)
    (hblank : isBlankPart c = true) : isBlank b = true := by
  cases state with
  | none => exact isBlank_of_mem_beginChar hc hblank
  | some u =>
    rw [readByte] at hc
    rcases (hstate u rfl).continueChar_cases b with ⟨-, ⟨n, hn, h⟩ | ⟨v, -, h⟩⟩ | h <;>
      rw [h] at hc
    · rw [List.mem_singleton.1 hc, isBlankPart_ofNat_iff] at hblank
      omega
    · exact absurd hc List.not_mem_nil
    · rcases List.mem_cons.1 hc with rfl | hc
      · cases hblank
      · exact isBlank_of_mem_beginChar hc hblank

theorem not_mem_decodeFrom_nil (state : Option Unfinished) (hblank : isBlankPart c = true) :
    c ∉ decodeFrom state [] := by
  intro hc
  cases state with
  | none => exact absurd hc List.not_mem_nil
  | some u =>
    rw [List.mem_singleton.1 hc, isBlankPart_none] at hblank
    cases hblank

/-- Where a space or a tab is read, its byte stands and cuts what is read in two. -/
theorem exists_of_decodeFrom_eq_append (hstate : ∀ u ∈ state, u.Wide)
    (hblank : isBlankPart c = true) (h : decodeFrom state x = ps ++ c :: qs) :
    ∃ y b z, x = y ++ b :: z ∧ isBlank b = true ∧ decodeFrom state y = ps ∧
      decodeFrom none z = qs := by
  induction x generalizing state ps with
  | nil => exact absurd (by rw [h]; simp) (not_mem_decodeFrom_nil state hblank)
  | cons a x ih =>
    have hwide := wide_readByte hstate a
    rw [decodeFrom_cons] at h
    rcases List.append_eq_append_iff.1 h with ⟨as, rfl, has⟩ | ⟨as, has, hrest⟩
    · obtain ⟨y, b, z, rfl, hb, rfl, rfl⟩ := ih hwide has
      exact ⟨a :: y, b, z, rfl, hb, decodeFrom_cons _ _ _, rfl⟩
    · cases as with
      | nil =>
        rw [List.append_nil] at has
        rw [List.nil_append, ← List.nil_append (c :: qs)] at hrest
        obtain ⟨y, b, z, rfl, hb, hy, rfl⟩ := ih hwide hrest.symm
        exact ⟨a :: y, b, z, rfl, hb, by rw [decodeFrom_cons, hy, has, List.append_nil], rfl⟩
      | cons q as =>
        -- the byte itself was read as `c`, and nothing was read of it after `c`
        obtain ⟨rfl, rfl⟩ := List.cons.inj hrest
        have ha := isBlank_of_mem_readByte hstate (by rw [has]; simp) hblank
        rw [readByte_of_lt hstate (toNat_lt_of_isBlank ha)] at has ⊢
        refine ⟨[], a, x, rfl, ha, ?_⟩
        rcases List.eq_nil_or_concat' as with rfl | ⟨as, r, rfl⟩
        · exact ⟨(List.append_inj' has rfl).1, rfl⟩
        · rw [← List.cons_append, ← List.append_assoc] at has
          refine absurd ?_ (not_mem_decodeFrom_nil state hblank)
          rw [(List.append_inj' has rfl).1]
          exact List.mem_append_right _ List.mem_cons_self

/-! ## Trimming what is read -/

theorem decodeParts_append_cons (hb : isBlank b = true) (x y : Bytes) :
    decodeParts (x ++ b :: y) = decodeParts x ++ some (Char.ofNat b.toNat) :: decodeParts y :=
  decodeFrom_append_cons (by simp) (toNat_lt_of_isBlank hb) x y

theorem decodeParts_dropWhile (l : Bytes) :
    decodeParts (l.dropWhile isBlank) = (decodeParts l).dropWhile isBlankPart := by
  induction l with
  | nil => rfl
  | cons b bs ih =>
    by_cases hb : isBlank b = true
    · rw [List.dropWhile_cons_of_pos hb, ih, ← List.nil_append (b :: bs),
        decodeParts_append_cons hb, decodeParts_eq_nil_iff.2 rfl, List.nil_append,
        List.dropWhile_cons_of_pos (isBlankPart_of_isBlank hb)]
    · rw [List.dropWhile_cons_of_neg hb]
      cases h : decodeParts (b :: bs) with
      | nil => rfl
      | cons c ps =>
        rw [List.dropWhile_cons_of_neg]
        intro hc
        rw [decodeParts, ← List.nil_append (c :: ps)] at h
        obtain ⟨y, d, z, hsplit, hd, hy, -⟩ := exists_of_decodeFrom_eq_append (by simp) hc h
        obtain rfl := decodeParts_eq_nil_iff.1 hy
        rw [(List.cons.inj hsplit).1] at hb
        exact hb hd

theorem decodeParts_rdropWhile (l : Bytes) :
    decodeParts (l.rdropWhile isBlank) = (decodeParts l).rdropWhile isBlankPart := by
  induction l using List.reverseRecOn with
  | nil => rfl
  | append_singleton bs b ih =>
    by_cases hb : isBlank b = true
    · rw [List.rdropWhile_concat_pos _ _ _ hb, ih, decodeParts_append_cons hb,
        decodeParts_eq_nil_iff.2 rfl,
        List.rdropWhile_concat_pos _ _ _ (isBlankPart_of_isBlank hb)]
    · rw [List.rdropWhile_concat_neg _ _ _ hb]
      rcases List.eq_nil_or_concat' (decodeParts (bs ++ [b])) with h | ⟨ps, c, h⟩
      · rw [h, List.rdropWhile_nil]
      · rw [h, List.rdropWhile_concat_neg]
        intro hc
        obtain ⟨y, d, z, hsplit, hd, -, hz⟩ := exists_of_decodeFrom_eq_append (by simp) hc h
        obtain rfl := decodeParts_eq_nil_iff.1 hz
        rw [List.singleton_inj.1 (List.append_inj' hsplit rfl).2] at hb
        exact hb hd

/-- Trimming takes the spaces and tabs from both ends of what is read of a line, be its bytes
those of a text or not. -/
@[simp] theorem decodeParts_trim (l : Bytes) : decodeParts (trim l) =
    ((decodeParts l).dropWhile isBlankPart).rdropWhile isBlankPart := by
  rw [trim_eq, decodeParts_rdropWhile, decodeParts_dropWhile]

end DocTree.Text
