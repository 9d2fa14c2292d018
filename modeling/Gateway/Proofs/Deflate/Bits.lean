import Gateway.Deflate.Inflate
import Mathlib.Algebra.Group.Nat.Defs

set_option autoImplicit false

namespace Gateway.Deflate

@[simp] theorem bits_of_length (width n : Nat) : (bitsOf width n).length = width := by
  induction width generalizing n with
  | zero => rfl
  | succ width ih => simp [bitsOf, ih]

@[simp] theorem code_bits_length (width n : Nat) : (codeBits width n).length = width := by
  simp [codeBits]

theorem number_bits_of (width n : Nat) (bound : n < 2 ^ width) : number (bitsOf width n) = n := by
  induction width generalizing n with
  | zero => simp [bitsOf, number, show n = 0 by omega]
  | succ width ih =>
      have half : number (bitsOf width (n / 2)) = n / 2 := ih (n / 2) (by omega)
      simp only [number] at half
      by_cases odd : n % 2 = 1
      · simp [bitsOf, number, half, odd]
        omega
      · simp [bitsOf, number, half, odd]
        omega

theorem number_lt (bits : Bits) : number bits < 2 ^ bits.length := by
  induction bits with
  | nil => simp [number]
  | cons b rest ih =>
      simp only [number, List.foldr_cons, List.length_cons, Nat.pow_succ] at ih ⊢
      cases b <;> simp <;> omega

theorem bits_of_wider (bits : Bits) (width : Nat) (fits : bits.length ≤ width) :
    bitsOf width (number bits) = bits ++ List.replicate (width - bits.length) false := by
  induction bits generalizing width with
  | nil =>
      simp only [number, List.foldr_nil, List.nil_append, List.length_nil, Nat.sub_zero]
      clear fits
      induction width with
      | zero => rfl
      | succ width ih => simp [bitsOf, ih, List.replicate_succ]
  | cons b rest ih =>
      cases width with
      | zero => simp at fits
      | succ width =>
          have half : (b.toNat + 2 * number rest) / 2 = number rest := by
            have := Bool.toNat_lt b
            omega
          have tail := ih width (by simpa using fits)
          simp only [number] at half tail
          simp only [number, List.foldr_cons, bitsOf, half, tail]
          cases b <;> simp

theorem unpack_append (a b : Bytes) : unpack (a ++ b) = unpack a ++ unpack b := by
  simp [unpack]

@[simp] theorem unpack_nil : unpack [] = [] := rfl

theorem unpack_cons (b : UInt8) (rest : Bytes) : unpack (b :: rest) = bitsOf 8 b.toNat ++ unpack rest := rfl

@[simp] theorem unpack_length (bytes : Bytes) : (unpack bytes).length = 8 * bytes.length := by
  induction bytes with
  | nil => rfl
  | cons b rest ih =>
      simp [unpack_cons, ih]
      omega

theorem unpack_octet (bits : Bits) (fits : bits.length ≤ 8) :
    bitsOf 8 (UInt8.ofNat (number bits)).toNat = bits ++ List.replicate (8 - bits.length) false := by
  have bound : number bits < 256 := Nat.lt_of_lt_of_le (number_lt bits) (Nat.pow_le_pow_right (by omega) fits)
  rw [UInt8.toNat_ofNat_of_lt' bound, bits_of_wider bits 8 fits]

theorem unpack_pack (bits : Bits) : ∃ padding, padding.length < 8 ∧ unpack (pack bits) = bits ++ padding := by
  induction bits using pack.induct with
  | case1 b0 b1 b2 b3 b4 b5 b6 b7 rest ih =>
      obtain ⟨padding, short, same⟩ := ih
      refine ⟨padding, short, ?_⟩
      rw [pack, unpack_cons, same, unpack_octet _ (by simp)]
      rfl
  | case2 => exact ⟨[], by simp, rfl⟩
  | case3 bits partly nonempty =>
      have short : bits.length < 8 := by
        refine Decidable.byContradiction fun long => ?_
        match bits, long with
        | b0 :: b1 :: b2 :: b3 :: b4 :: b5 :: b6 :: b7 :: rest, _ => exact partly _ _ _ _ _ _ _ _ _ rfl
        | [], long => simp at long
        | [_], long => simp at long
        | [_, _], long => simp at long
        | [_, _, _], long => simp at long
        | [_, _, _, _], long => simp at long
        | [_, _, _, _, _], long => simp at long
        | [_, _, _, _, _, _], long => simp at long
        | [_, _, _, _, _, _, _], long => simp at long
      have filled : 0 < bits.length := List.length_pos_iff.mpr nonempty
      refine ⟨List.replicate (8 - bits.length) false, by simp; omega, ?_⟩
      rw [pack, unpack_cons, unpack_octet bits (by omega), unpack_nil, List.append_nil]
      all_goals assumption

theorem take_number (width n : Nat) (rest : Bits) (bound : n < 2 ^ width) :
    takeNumber width (bitsOf width n ++ rest) = .ok (n, rest) := by
  simp [takeNumber, number_bits_of width n bound]

theorem take_bits (bits rest : Bits) : takeNumber bits.length (bits ++ rest) = .ok (number bits, rest) := by
  simp [takeNumber]

theorem take_octet (b : UInt8) (rest : Bytes) : takeNumber 8 (unpack (b :: rest)) = .ok (b.toNat, unpack rest) :=
  take_number 8 b.toNat (unpack rest) b.toNat_lt

theorem number_append (a b : Bits) : number (a ++ b) = number a + 2 ^ a.length * number b := by
  induction a with
  | nil => simp [number]
  | cons x rest ih =>
      simp only [number] at ih ⊢
      simp only [List.cons_append, List.foldr_cons, List.length_cons, ih, Nat.pow_succ]
      grind

theorem take_octets2 (n : Nat) (rest : Bytes) (bound : n < 65536) :
    takeNumber 16 (unpack (octets2 n ++ rest)) = .ok (n, unpack rest) := by
  have low : (UInt8.ofNat (n % 256)).toNat = n % 256 :=
    UInt8.toNat_ofNat_of_lt' (Nat.mod_lt _ (by decide))
  have high : (UInt8.ofNat (n / 256 % 256)).toNat = n / 256 % 256 :=
    UInt8.toNat_ofNat_of_lt' (Nat.mod_lt _ (by decide))
  have taken := take_bits (bitsOf 8 (n % 256) ++ bitsOf 8 (n / 256 % 256)) (unpack rest)
  rw [number_append, number_bits_of 8 _ (by omega), number_bits_of 8 _ (by omega)] at taken
  simp only [List.length_append, bits_of_length, List.append_assoc] at taken
  simp only [octets2, List.cons_append, List.nil_append, unpack_cons, low, high]
  rw [taken]
  simp only [Except.ok.injEq, Prod.mk.injEq, and_true]
  omega

theorem read_octets (block rest past : Bytes) :
    readOctets block.length past (unpack (block ++ rest)) = (block.reverse ++ past, .ok (unpack rest)) := by
  induction block generalizing past with
  | nil => rfl
  | cons b more ih =>
      rw [List.length_cons, readOctets, List.cons_append, take_octet]
      simp only [UInt8.ofNat_toNat, ih]
      simp

theorem align_padded (padding : Bits) (rest : Bytes) (short : padding.length < 8) :
    align (padding ++ unpack rest) = unpack rest := by
  have length : (padding ++ unpack rest).length % 8 = padding.length := by
    simp only [List.length_append, unpack_length]
    omega
  rw [align, length, List.drop_left]

end Gateway.Deflate
