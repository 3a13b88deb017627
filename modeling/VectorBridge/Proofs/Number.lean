import Mathlib
import VectorBridge.Number.Basic
/-!
# Integers among binary64 values

Integers are compared by the binary64 values nearest to them. Such a value is a
number, so an integer equals itself; integers with one nearest value are equal
as well, which is why equality of keys is weaker than that of integers.
-/

namespace VectorBridge

namespace Binary64

open Float.Model

/-- The magnitude of a packed value, in its two parts. -/
theorem packComponents_mod (sign : UnpackedFloat.Sign) (e : BitVec 11) (m : BitVec 52) :
    (UnpackedFloat.packComponents Format.binary64 sign e m).toNat % Word.half64 =
      e.toNat * 2 ^ 52 + m.toNat := by
  have he : e.toNat < 2 ^ 11 := e.isLt
  have hm : m.toNat < 2 ^ 52 := m.isLt
  show (sign.toBitVec ++ e ++ m).toNat % 2 ^ 63 = _
  rw [BitVec.toNat_append, BitVec.toNat_append, ← Nat.shiftLeft_add_eq_or_of_lt he,
    ← Nat.shiftLeft_add_eq_or_of_lt hm]
  simp only [Nat.shiftLeft_eq]
  omega

/-- What is packed is at most infinity, unless it is no number. -/
theorem pack_mod_le {f : Float.Model.UnpackedFloat} (h : f ≠ .notANumber) :
    (UnpackedFloat.pack Format.binary64 f).toNat % Word.half64 ≤
      BinaryFormat.binary64.infinityBits := by
  fun_cases UnpackedFloat.pack with
  | case1 => exact absurd rfl h
  | case2 s =>
    rw [UnpackedFloat.packedInfinity, packComponents_mod]
    decide
  | case3 s =>
    rw [UnpackedFloat.packedZero, packComponents_mod]
    decide
  | case4 s m e hm biasedExponent h =>
    rw [UnpackedFloat.packedInfinity, packComponents_mod]
    decide
  | case5 s m e hm actualMantissaBits biasedExponent h₁ h₂ =>
    -- the exponent is below that of infinity
    have hlt : biasedExponent + 1 < 2 ^ 11 := Nat.lt_of_not_le h₁
    rw [packComponents_mod, BitVec.toNat_ofNat, BitVec.toNat_ofNat]
    show _ ≤ 2047 * 2 ^ 52
    omega
  | case6 s m e hm actualMantissaBits biasedExponent h₁ h₂ =>
    rw [packComponents_mod, BitVec.toNat_ofNat]
    show 0 * 2 ^ 52 + m % 2 ^ 52 ≤ 2047 * 2 ^ 52
    omega

/-- Bits up to infinity are those of a number. -/
theorem unpack_ne_notANumber {b : BitVec 64}
    (h : b.toNat % Word.half64 ≤ BinaryFormat.binary64.infinityBits) :
    UnpackedFloat.unpack Format.binary64 b ≠ .notANumber := by
  have hlt : b.toNat < 2 ^ 64 := b.isLt
  have hle : b.toNat % 2 ^ 63 ≤ 2047 * 2 ^ 52 := h
  unfold UnpackedFloat.unpack
  simp only
  split
  · rename_i hexponent
    -- with the exponent of infinity there is no room for a mantissa
    have hmantissa : @UnpackedFloat.unpackMantissa Format.binary64 b = 0#_ := by
      have he := congrArg BitVec.toNat hexponent
      simp only [UnpackedFloat.unpackExponent, BitVec.toNat_cast, BitVec.extractLsb_toNat,
        Nat.shiftRight_eq_div_pow] at he
      have hexp : b.toNat / 2 ^ 52 % 2 ^ 11 = 2047 := he
      refine BitVec.eq_of_toNat_eq ?_
      simp only [UnpackedFloat.unpackMantissa, BitVec.toNat_cast, BitVec.extractLsb_toNat,
        Nat.shiftRight_zero]
      show b.toNat % 2 ^ 52 = 0
      omega
    rw [if_pos hmantissa]
    exact UnpackedFloat.noConfusion
  · split
    · split <;> exact UnpackedFloat.noConfusion
    · exact UnpackedFloat.noConfusion

theorem natAbs_key (x : Float) : (key x).natAbs = magnitude x := by
  unfold key
  split <;> simp

/-- A number equals itself. -/
theorem eq_self {bits : UInt64}
    (h : bits.toNat % Word.half64 ≤ BinaryFormat.binary64.infinityBits) :
    eq (Float.ofBits bits) (Float.ofBits bits) = true := by
  have hmag : magnitude (Float.ofBits bits) ≤ BinaryFormat.binary64.infinityBits :=
    pack_mod_le (unpack_ne_notANumber h)
  rw [eq, compare?, compareKeys, if_neg (by rw [natAbs_key]; omega)]
  simp

/-- Bits of a positive normal value are kept. -/
theorem pack_unpack_mod {b : BitVec 64} (hlow : 2 ^ 52 ≤ b.toNat)
    (hhigh : b.toNat < 2047 * 2 ^ 52) :
    (UnpackedFloat.pack Format.binary64 (UnpackedFloat.unpack Format.binary64 b)).toNat %
      Word.half64 = b.toNat := by
  have hexp : (@UnpackedFloat.unpackExponent Format.binary64 b).toNat = b.toNat / 2 ^ 52 := by
    simp only [UnpackedFloat.unpackExponent, BitVec.toNat_cast, BitVec.extractLsb_toNat,
      Nat.shiftRight_eq_div_pow]
    show b.toNat / 2 ^ 52 % 2 ^ 11 = b.toNat / 2 ^ 52
    omega
  have hman : (@UnpackedFloat.unpackMantissa Format.binary64 b).toNat = b.toNat % 2 ^ 52 := by
    simp only [UnpackedFloat.unpackMantissa, BitVec.toNat_cast, BitVec.extractLsb_toNat,
      Nat.shiftRight_zero]
  have hne : @UnpackedFloat.unpackExponent Format.binary64 b ≠ -1#_ := fun h => by
    have h' : b.toNat / 2 ^ 52 = 2047 := hexp.symm.trans (congrArg BitVec.toNat h)
    omega
  have hne' : @UnpackedFloat.unpackExponent Format.binary64 b ≠ 0#_ := fun h => by
    have h' : b.toNat / 2 ^ 52 = 0 := hexp.symm.trans (congrArg BitVec.toNat h)
    omega
  -- the mantissa with its implicit bit
  have hfull : (1#1 ++ @UnpackedFloat.unpackMantissa Format.binary64 b).toNat =
      2 ^ 52 + b.toNat % 2 ^ 52 := by
    rw [BitVec.toNat_append, hman, ← Nat.shiftLeft_add_eq_or_of_lt (Nat.mod_lt _ (by decide))]
    rfl
  have hlog : (2 ^ 52 + b.toNat % 2 ^ 52).log2 = 52 := by
    rw [Nat.log2_eq_iff (by omega)]
    omega
  have hbias : ∀ bias : Nat, (((b.toNat / 2 ^ 52 : Nat) : Int) - (bias + (52 : Nat)) + bias +
      (52 : Nat)).toNat = b.toNat / 2 ^ 52 := fun bias => by omega
  unfold UnpackedFloat.unpack
  simp only
  rw [if_neg hne, if_neg hne', UnpackedFloat.pack]
  simp only [hexp, hfull, hlog, hbias]
  rw [if_neg (by omega), if_pos (show 52 + 1 = Format.binary64.mantissaBits from rfl),
    packComponents_mod, BitVec.toNat_ofNat, BitVec.toNat_ofNat]
  show b.toNat / 2 ^ 52 % 2 ^ 11 * 2 ^ 52 + (2 ^ 52 + b.toNat % 2 ^ 52) % 2 ^ 52 = b.toNat
  omega

/-- The significand of a small integer, shifted to its full length. -/
theorem significand_bounds {m : Nat} (hm : m ≠ 0) (hlog : m.log2 < 53) :
    2 ^ 52 ≤ m * 2 ^ (52 - m.log2) ∧ m * 2 ^ (52 - m.log2) < 2 ^ 53 := by
  constructor
  · calc 2 ^ 52 = 2 ^ m.log2 * 2 ^ (52 - m.log2) := by rw [← Nat.pow_add]; congr 1; omega
      _ ≤ m * 2 ^ (52 - m.log2) := Nat.mul_le_mul_right _ (Nat.log2_self_le hm)
  · calc m * 2 ^ (52 - m.log2) < 2 ^ (m.log2 + 1) * 2 ^ (52 - m.log2) :=
          Nat.mul_lt_mul_of_pos_right Nat.lt_log2_self (Nat.two_pow_pos _)
      _ = 2 ^ 53 := by rw [← Nat.pow_add]; congr 1; omega

/-- A small integer has a nearest value of its own exponent and significand. -/
theorem roundBits_eq {m : Nat} (hm : m ≠ 0) (hlog : m.log2 < 53) :
    BinaryFormat.binary64.roundBits m 0 = (m.log2 + 1022) * 2 ^ 52 + m * 2 ^ (52 - m.log2) := by
  have hunit : max ((m.log2 : Int) + 0 - BinaryFormat.binary64.mantissaBits)
      BinaryFormat.binary64.minExponent = (m.log2 : Int) - 52 := by
    show max ((m.log2 : Int) + 0 - (52 : Nat)) (-1074) = (m.log2 : Int) - 52
    omega
  have hexponent : ((m.log2 : Int) - 52 - BinaryFormat.binary64.minExponent).toNat =
      m.log2 + 1022 := by
    show ((m.log2 : Int) - 52 - (-1074)).toNat = m.log2 + 1022
    omega
  have hshift : (0 - ((m.log2 : Int) - 52)).toNat = 52 - m.log2 := by omega
  -- the significand fits, so nothing is rounded off
  have hfits := (significand_bounds hm hlog).2
  rw [BinaryFormat.roundBits, if_neg hm]
  simp only [hunit, hexponent, hshift]
  rw [if_pos (by omega)]
  refine Nat.min_eq_left ?_
  show (m.log2 + 1022) * 2 ^ 52 + m * 2 ^ (52 - m.log2) ≤ 2047 * 2 ^ 52
  omega

/-- The nearest value of a small integer has the bits that it is rounded to. -/
theorem magnitude_ofInt {m : Nat} (hlt : m < 2 ^ 53) :
    magnitude (ofInt m) = BinaryFormat.binary64.roundBits m 0 := by
  have hsign : ¬((m : Int) < 0) := by omega
  rw [ofInt, decide_eq_false hsign, Int.natAbs_natCast, ofParts, if_neg Bool.false_ne_true]
  by_cases hm : m = 0
  · rw [hm]
    rfl
  · have hlog : m.log2 < 53 := (Nat.log2_lt hm).2 hlt
    have hsig := significand_bounds hm hlog
    have hbits := roundBits_eq hm hlog
    generalize BinaryFormat.binary64.roundBits m 0 = bits at hbits ⊢
    have hkept : (UInt64.ofNat bits).toBitVec.toNat = bits := by
      show bits % 2 ^ 64 = bits
      omega
    refine (pack_unpack_mod ?_ ?_).trans hkept
    · rw [hkept]
      omega
    · rw [hkept]
      omega

/-- Small integers have different nearest values. -/
theorem ofInt_inj {m n : Nat} (hm : m < 2 ^ 53) (hn : n < 2 ^ 53)
    (h : magnitude (ofInt m) = magnitude (ofInt n)) : m = n := by
  rw [magnitude_ofInt hm, magnitude_ofInt hn] at h
  have hzero : BinaryFormat.binary64.roundBits 0 0 = 0 := rfl
  by_cases hm₀ : m = 0 <;> by_cases hn₀ : n = 0
  · rw [hm₀, hn₀]
  · have hlog := (Nat.log2_lt hn₀).2 hn
    have hsig := significand_bounds hn₀ hlog
    rw [hm₀, hzero, roundBits_eq hn₀ hlog] at h
    omega
  · have hlog := (Nat.log2_lt hm₀).2 hm
    have hsig := significand_bounds hm₀ hlog
    rw [hn₀, hzero, roundBits_eq hm₀ hlog] at h
    omega
  · have hlog := (Nat.log2_lt hm₀).2 hm
    have hlog' := (Nat.log2_lt hn₀).2 hn
    have hsig := significand_bounds hm₀ hlog
    have hsig' := significand_bounds hn₀ hlog'
    rw [roundBits_eq hm₀ hlog, roundBits_eq hn₀ hlog'] at h
    -- the exponents are equal, and so are the significands then
    have hexp : m.log2 = n.log2 := by omega
    rw [hexp] at h
    exact Nat.eq_of_mul_eq_mul_right (Nat.two_pow_pos _) (Nat.add_left_cancel h)

/-- Numbers that are equal have one magnitude. -/
theorem magnitude_eq_of_eq {x y : Float} (h : eq x y = true) : magnitude x = magnitude y := by
  rw [eq, compare?, compareKeys] at h
  split at h
  · simp at h
  · have hkey : compare (key x) (key y) = .eq := by simpa using h
    rw [← natAbs_key x, ← natAbs_key y, Std.LawfulEqOrd.eq_of_compare hkey]

end Binary64

/-- **An integer equals itself**, large ones included. -/
theorem Number.looseEq_int_self (n : Int) : (Number.int n).looseEq (.int n) = true := by
  refine Binary64.eq_self ?_
  have hmin : BinaryFormat.binary64.roundBits n.natAbs 0 ≤ 2047 * 2 ^ 52 := by
    unfold BinaryFormat.roundBits
    split
    · exact Nat.zero_le _
    · exact Nat.min_le_right _ _
  show _ % 2 ^ 63 ≤ 2047 * 2 ^ 52
  rw [UInt64.toNat_ofNat']
  split
  · have hhalf : Word.half64 = 2 ^ 63 := rfl
    omega
  · omega

/-- **Small integers are equal only to themselves.** -/
theorem Number.eq_of_looseEq_int {m n : Nat} (hm : m < 2 ^ 53) (hn : n < 2 ^ 53)
    (h : (Number.int m).looseEq (.int n) = true) : m = n :=
  Binary64.ofInt_inj hm hn (Binary64.magnitude_eq_of_eq h)

end VectorBridge
