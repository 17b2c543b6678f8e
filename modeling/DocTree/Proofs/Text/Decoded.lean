import DocTree.Proofs.Text.Utf8
set_option autoImplicit false

/-!
# Decoded: bytes that are read in full

Reading finds something absent exactly in bytes that are not those of a text
(`isEncoded_iff`): where nothing is absent, each character stands with just the bytes that it
is encoded by.  So the text that `decode?` answers is the one whose bytes were read
(`decode?_eq_some_iff`).
-/

namespace DocTree.Text

variable {x : Bytes} {cs : List Char}

/-! ## Characters of one to four bytes -/

theorem toNat_val_ofNat {v : Nat} (h : v.isValidChar) : (Char.ofNat v).val.toNat = v := by
  rw [Char.ofNat, dif_pos h]
  rfl

theorem utf8EncodeChar_one {v : Nat} (h : v < 128) :
    String.utf8EncodeChar (Char.ofNat v) = [UInt8.ofNat v] := by
  have hv := toNat_val_ofNat (v := v) (Or.inl (by omega))
  unfold String.utf8EncodeChar
  dsimp only
  rw [hv, if_pos (by omega)]

theorem utf8EncodeChar_two {v : Nat} (hlow : 128 ≤ v) (hhigh : v < 2048) :
    String.utf8EncodeChar (Char.ofNat v) =
      [UInt8.ofNat (v / 64 + 192), UInt8.ofNat (v % 64 + 128)] := by
  have hv := toNat_val_ofNat (v := v) (Or.inl (by omega))
  have hlead : v / 64 % 32 = v / 64 := by omega
  unfold String.utf8EncodeChar
  dsimp only
  rw [hv, if_neg (by omega), if_pos (by omega), hlead]

theorem utf8EncodeChar_three {v : Nat} (hlow : 2048 ≤ v) (hhigh : v < 65536)
    (hvalid : v.isValidChar) :
    String.utf8EncodeChar (Char.ofNat v) =
      [UInt8.ofNat (v / 4096 + 224), UInt8.ofNat (v / 64 % 64 + 128),
        UInt8.ofNat (v % 64 + 128)] := by
  have hv := toNat_val_ofNat hvalid
  have hlead : v / 4096 % 16 = v / 4096 := by omega
  unfold String.utf8EncodeChar
  dsimp only
  rw [hv, if_neg (by omega), if_neg (by omega), if_pos (by omega), hlead]

theorem utf8EncodeChar_four {v : Nat} (hlow : 65536 ≤ v) (hvalid : v.isValidChar) :
    String.utf8EncodeChar (Char.ofNat v) =
      [UInt8.ofNat (v / 262144 + 240), UInt8.ofNat (v / 4096 % 64 + 128),
        UInt8.ofNat (v / 64 % 64 + 128), UInt8.ofNat (v % 64 + 128)] := by
  have hv := toNat_val_ofNat hvalid
  have hlead : v / 262144 % 8 = v / 262144 := by
    have : v < 1114112 := by
      rcases hvalid with h | h
      · omega
      · exact h.2
    omega
  unfold String.utf8EncodeChar
  dsimp only
  rw [hv, if_neg (by omega), if_neg (by omega), if_neg (by omega), hlead]

/-! ## What is read in full -/

section Continue

variable {code missing : Nat} {low high : UInt8}

/-- Behind an unfinished character a byte in range stands if nothing is absent. -/
theorem exists_of_none_not_mem {u : Unfinished} (hlow : 128 ≤ u.low.toNat)
    (hhigh : u.high.toNat < 192) (h : none ∉ decodeFrom (some u) x) :
    ∃ r rest, r < 64 ∧ u.low.toNat ≤ r + 128 ∧ r + 128 ≤ u.high.toNat ∧
      x = UInt8.ofNat (r + 128) :: rest := by
  cases x with
  | nil => simp [decodeFrom] at h
  | cons b rest =>
    by_cases hrange : u.low ≤ b ∧ b ≤ u.high
    · rw [UInt8.le_iff_toNat_le, UInt8.le_iff_toNat_le] at hrange
      refine ⟨b.toNat - 128, rest, by omega, by omega, by omega, ?_⟩
      rw [Nat.sub_add_cancel (by omega), UInt8.ofNat_toNat]
    · rw [decodeFrom_cons, readByte, continueChar, if_neg hrange] at h
      exact absurd List.mem_cons_self h

theorem none_not_mem_last (hlow : 128 ≤ low.toNat) (hhigh : high.toNat < 192)
    (h : none ∉ decodeFrom (some ⟨code, 0, low, high⟩) x) :
    ∃ r rest, r < 64 ∧ low.toNat ≤ r + 128 ∧ r + 128 ≤ high.toNat ∧
      x = UInt8.ofNat (r + 128) :: rest ∧ none ∉ decodeFrom none rest := by
  obtain ⟨r, rest, hr, hl, hh, rfl⟩ := exists_of_none_not_mem hlow hhigh h
  rw [decodeFrom_last hr hl hh, List.mem_cons, not_or] at h
  exact ⟨r, rest, hr, hl, hh, rfl, h.2⟩

theorem none_not_mem_inner (hlow : 128 ≤ low.toNat) (hhigh : high.toNat < 192)
    (h : none ∉ decodeFrom (some ⟨code, missing + 1, low, high⟩) x) :
    ∃ r rest, r < 64 ∧ low.toNat ≤ r + 128 ∧ r + 128 ≤ high.toNat ∧
      x = UInt8.ofNat (r + 128) :: rest ∧
        none ∉ decodeFrom (some ⟨code * 64 + r, missing, 0x80, 0xBF⟩) rest := by
  obtain ⟨r, rest, hr, hl, hh, rfl⟩ := exists_of_none_not_mem hlow hhigh h
  rw [decodeFrom_inner hr hl hh] at h
  exact ⟨r, rest, hr, hl, hh, rfl, h⟩

end Continue

/-! ## Characters by their first byte -/

section First

variable {n : Nat}

/-- The bytes begin with those of a character, and of the others nothing is absent. -/
def BeginsRead (x : Bytes) : Prop :=
  ∃ c rest, x = String.utf8EncodeChar c ++ rest ∧ none ∉ decodeParts rest

theorem beginsRead_two (hlow : 194 ≤ n) (hhigh : n < 224)
    (h : none ∉ decodeFrom (some ⟨n % 32, 0, 0x80, 0xBF⟩) x) :
    BeginsRead (UInt8.ofNat n :: x) := by
  obtain ⟨r, rest, hr, -, -, rfl, hrest⟩ := none_not_mem_last (by decide) (by decide) h
  refine ⟨Char.ofNat (n % 32 * 64 + r), rest, ?_, hrest⟩
  rw [utf8EncodeChar_two (by omega) (by omega)]
  have h1 : (n % 32 * 64 + r) / 64 + 192 = n := by omega
  have h2 : (n % 32 * 64 + r) % 64 = r := by omega
  rw [h1, h2]
  rfl

theorem beginsRead_three (hlow : 224 ≤ n) (hhigh : n < 240)
    (h : none ∉ decodeFrom (some ⟨n % 16, 1, if n = 224 then 0xA0 else 0x80,
      if n = 237 then 0x9F else 0xBF⟩) x) :
    BeginsRead (UInt8.ofNat n :: x) := by
  obtain ⟨r, y, hr, hl, hh, rfl, hy⟩ := none_not_mem_inner (by split <;> decide)
    (by split <;> decide) h
  obtain ⟨s, rest, hs, -, -, rfl, hrest⟩ := none_not_mem_last (by decide) (by decide) hy
  -- no longer form than needed, and no surrogate
  have hneeded : n = 224 → 32 ≤ r := by
    rintro rfl
    simp at hl
    omega
  have hsurrogate : n = 237 → r < 32 := by
    rintro rfl
    simp at hh
    omega
  refine ⟨Char.ofNat ((n % 16 * 64 + r) * 64 + s), rest, ?_, hrest⟩
  rw [utf8EncodeChar_three (by omega) (by omega) (by unfold Nat.isValidChar; omega)]
  have h1 : ((n % 16 * 64 + r) * 64 + s) / 4096 + 224 = n := by omega
  have h2 : ((n % 16 * 64 + r) * 64 + s) / 64 % 64 = r := by omega
  have h3 : ((n % 16 * 64 + r) * 64 + s) % 64 = s := by omega
  rw [h1, h2, h3]
  rfl

theorem beginsRead_four (hlow : 240 ≤ n) (hhigh : n < 245)
    (h : none ∉ decodeFrom (some ⟨n % 8, 2, if n = 240 then 0x90 else 0x80,
      if n = 244 then 0x8F else 0xBF⟩) x) :
    BeginsRead (UInt8.ofNat n :: x) := by
  obtain ⟨r, y, hr, hl, hh, rfl, hy⟩ := none_not_mem_inner (by split <;> decide)
    (by split <;> decide) h
  obtain ⟨s, z, hs, -, -, rfl, hz⟩ := none_not_mem_inner (by decide) (by decide) hy
  obtain ⟨q, rest, hq, -, -, rfl, hrest⟩ := none_not_mem_last (by decide) (by decide) hz
  -- no longer form than needed, and no number that no character has
  have hneeded : n = 240 → 16 ≤ r := by
    rintro rfl
    simp at hl
    omega
  have hgreatest : n = 244 → r < 16 := by
    rintro rfl
    simp at hh
    omega
  refine ⟨Char.ofNat (((n % 8 * 64 + r) * 64 + s) * 64 + q), rest, ?_, hrest⟩
  rw [utf8EncodeChar_four (by omega) (by unfold Nat.isValidChar; omega)]
  have h1 : (((n % 8 * 64 + r) * 64 + s) * 64 + q) / 262144 + 240 = n := by omega
  have h2 : (((n % 8 * 64 + r) * 64 + s) * 64 + q) / 4096 % 64 = r := by omega
  have h3 : (((n % 8 * 64 + r) * 64 + s) * 64 + q) / 64 % 64 = s := by omega
  have h4 : (((n % 8 * 64 + r) * 64 + s) * 64 + q) % 64 = q := by omega
  rw [h1, h2, h3, h4]
  rfl

/-- If nothing is absent, the bytes begin with those of a character. -/
theorem beginsRead_of_none_not_mem {b : UInt8} (h : none ∉ decodeParts (b :: x)) :
    BeginsRead (b :: x) := by
  obtain ⟨n, hn, rfl⟩ : ∃ n, n < 256 ∧ b = UInt8.ofNat n :=
    ⟨b.toNat, b.toNat_lt, UInt8.ofNat_toNat.symm⟩
  rw [decodeParts, decodeFrom_cons, readByte] at h
  by_cases hone : n < 128
  · rw [beginChar_one hone, List.mem_append, not_or] at h
    exact ⟨Char.ofNat n, x, by rw [utf8EncodeChar_one hone]; rfl, h.2⟩
  by_cases habsent : n < 194 ∨ 245 ≤ n
  · rw [beginChar_absent hn (by omega)] at h
    exact absurd List.mem_cons_self h
  by_cases htwo : n < 224
  · rw [beginChar_two (by omega) htwo, List.nil_append] at h
    exact beginsRead_two (by omega) htwo h
  by_cases hthree : n < 240
  · rw [beginChar_three (by omega) hthree, List.nil_append] at h
    exact beginsRead_three (by omega) hthree h
  · rw [beginChar_four (by omega) (by omega), List.nil_append] at h
    exact beginsRead_four (by omega) (by omega) h

end First

/-! ## All bytes -/

/-- Bytes of which nothing is absent are those of a text. -/
theorem isEncoded_of_none_not_mem (h : none ∉ decodeParts x) : IsEncoded x := by
  induction hn : x.length using Nat.strong_induction_on generalizing x with
  | _ n ih =>
    cases x with
    | nil => exact ⟨[], rfl⟩
    | cons b bs =>
      obtain ⟨c, rest, hsplit, hrest⟩ := beginsRead_of_none_not_mem h
      have hlen : rest.length < n := by
        have hpos : 0 < (String.utf8EncodeChar c).length := by
          rw [String.length_utf8EncodeChar]
          exact Char.utf8Size_pos c
        rw [← hn, hsplit, List.length_append]
        omega
      obtain ⟨cs, rfl⟩ := ih _ hlen hrest rfl
      exact ⟨c :: cs, by rw [encode_cons, hsplit]⟩

/-- Bytes are those of a text exactly if nothing is absent. -/
theorem isEncoded_iff : IsEncoded x ↔ none ∉ decodeParts x := by
  refine ⟨?_, isEncoded_of_none_not_mem⟩
  rintro ⟨cs, rfl⟩
  rw [decodeParts_encode]
  simp

theorem mapM_id_eq_some_iff {α : Type} {ps : List (Option α)} {as : List α} :
    ps.mapM id = some as ↔ ps = as.map some := by
  constructor
  · intro h
    induction ps generalizing as with
    | nil => simp_all
    | cons p ps ih =>
      simp [List.mapM_cons, Option.bind_eq_some_iff] at h
      obtain ⟨a, rfl, as, has, rfl⟩ := h
      rw [ih has]
      rfl
  · rintro rfl
    exact mapM_id_map_some as

theorem decode?_eq_some_iff : decode? x = some cs ↔ x = encode cs := by
  constructor
  · intro h
    have hparts := mapM_id_eq_some_iff.1 h
    obtain ⟨ds, rfl⟩ : IsEncoded x := isEncoded_iff.2 (by rw [hparts]; simp)
    rw [decode?_encode] at h
    rw [Option.some.inj h]
  · rintro rfl
    exact decode?_encode cs

end DocTree.Text
