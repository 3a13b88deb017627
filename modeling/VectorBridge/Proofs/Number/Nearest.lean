import Mathlib
import VectorBridge.Proofs.Number.Shortest
/-!
# Integers and their nearest doubles

An integer is compared through the binary64 value nearest to it. Below `2 ^ 53` that is the
integer itself; above, the significand is cut to its length, and integers that are cut to
the same one are taken for each other. The nearest value is an integer again (`nearest`), so
that what a comparison of doubles says of two integers is said here without any double.
-/

namespace VectorBridge

/-! ## Cutting a significand -/

namespace BinaryFormat

variable {m n s : Nat}

/-- What is cut off is at most half a unit of the last place. -/
theorem shiftRound_bounds (m s : Nat) :
    2 * m ≤ (2 * shiftRound m s + 1) * 2 ^ s ∧ 2 * shiftRound m s * 2 ^ s ≤ 2 * m + 2 ^ s := by
  have hden : Nat.pow 2 s = 2 ^ s := rfl
  have hparts := Nat.div_add_mod' m (2 ^ s)
  have hmod := Nat.mod_lt m (Nat.two_pow_pos s)
  rw [shiftRound]
  simp only [hden]
  generalize m % 2 ^ s = r at hparts hmod ⊢
  generalize m / 2 ^ s = q at hparts ⊢
  generalize 2 ^ s = d at hparts hmod ⊢
  rw [← hparts]
  split_ifs
  all_goals
    constructor
    · nlinarith
    · nlinarith

/-- Rounding keeps the order. -/
theorem shiftRound_le_shiftRound (h : m ≤ n) (s : Nat) : shiftRound m s ≤ shiftRound n s := by
  have hden : Nat.pow 2 s = 2 ^ s := rfl
  have hm := Nat.div_add_mod' m (2 ^ s)
  have hn := Nat.div_add_mod' n (2 ^ s)
  have hquotient : m / 2 ^ s ≤ n / 2 ^ s := Nat.div_le_div_right h
  rw [shiftRound, shiftRound]
  simp only [hden]
  obtain hlt | heq := hquotient.lt_or_eq
  · split_ifs <;> omega
  · -- with one quotient the remainders are in order
    rw [heq] at hm ⊢
    have hmod : m % 2 ^ s ≤ n % 2 ^ s := by omega
    split_ifs <;> omega

/-- Of a significand that is too long its full length is left. -/
theorem shiftRound_log2_bounds (hm : m ≠ 0) (hlog : 52 ≤ m.log2) :
    2 ^ 52 ≤ shiftRound m (m.log2 - 52) ∧ shiftRound m (m.log2 - 52) ≤ 2 ^ 53 := by
  have hlow : 2 ^ 52 * 2 ^ (m.log2 - 52) ≤ m := by
    rw [← Nat.pow_add, Nat.add_sub_cancel' hlog]
    exact Nat.log2_self_le hm
  have hhigh : m ≤ 2 ^ 53 * 2 ^ (m.log2 - 52) := by
    rw [← Nat.pow_add, show 53 + (m.log2 - 52) = m.log2 + 1 by omega]
    exact Nat.lt_log2_self.le
  constructor
  · exact (shiftRound_mul (2 ^ 52) _).symm.trans_le (shiftRound_le_shiftRound hlow _)
  · exact (shiftRound_le_shiftRound hhigh _).trans_eq (shiftRound_mul (2 ^ 53) _)

end BinaryFormat

open BinaryFormat

namespace Binary64

/-! ## The nearest value -/

/-- The binary64 value nearest to a natural number, ties to the even significand. -/
def nearestNat (m : Nat) : Nat := shiftRound m (m.log2 - 52) * 2 ^ (m.log2 - 52)

/-- The binary64 value nearest to an integer. -/
def nearest (n : Int) : Int := n.sign * nearestNat n.natAbs

variable {m n : Nat}

theorem log2_le_of_lt (h : m < 2 ^ 53) : m.log2 ≤ 52 := by
  obtain rfl | hm := eq_or_ne m 0
  · decide
  · exact Nat.le_of_lt_succ ((Nat.log2_lt hm).2 h)

theorem nearestNat_of_log2_le (h : m.log2 ≤ 52) : nearestNat m = m := by
  have hnone := shiftRound_mul m 0
  rw [Nat.pow_zero, Nat.mul_one] at hnone
  rw [nearestNat, Nat.sub_eq_zero_of_le h, hnone, Nat.pow_zero, Nat.mul_one]

/-- Nothing is cut off a significand that fits. -/
theorem nearestNat_of_lt (h : m < 2 ^ 53) : nearestNat m = m :=
  nearestNat_of_log2_le (log2_le_of_lt h)

/-- The nearest value is near: it differs by half a unit of the last place at most. -/
theorem nearestNat_near (m : Nat) :
    2 * m ≤ 2 * nearestNat m + 2 ^ (m.log2 - 52) ∧
      2 * nearestNat m ≤ 2 * m + 2 ^ (m.log2 - 52) := by
  obtain ⟨hlow, hhigh⟩ := shiftRound_bounds m (m.log2 - 52)
  rw [nearestNat]
  constructor
  · linarith
  · linarith

/-- The nearest value lies between the same powers of two. -/
theorem nearestNat_bounds (hm : m ≠ 0) :
    2 ^ m.log2 ≤ nearestNat m ∧ nearestNat m ≤ 2 ^ (m.log2 + 1) := by
  obtain hlog | hlog := Nat.lt_or_ge m.log2 52
  · rw [nearestNat_of_log2_le hlog.le]
    exact ⟨Nat.log2_self_le hm, Nat.lt_log2_self.le⟩
  · obtain ⟨hlow, hhigh⟩ := shiftRound_log2_bounds hm hlog
    constructor
    · calc 2 ^ m.log2 = 2 ^ 52 * 2 ^ (m.log2 - 52) := by rw [← Nat.pow_add]; congr 1; omega
        _ ≤ nearestNat m := Nat.mul_le_mul_right _ hlow
    · calc nearestNat m ≤ 2 ^ 53 * 2 ^ (m.log2 - 52) := Nat.mul_le_mul_right _ hhigh
        _ = 2 ^ (m.log2 + 1) := by rw [← Nat.pow_add]; congr 1; omega

/-- **Rounding to the nearest value keeps the order**: a power of two lies between integers
of different lengths. -/
theorem nearestNat_mono : Monotone nearestNat := by
  intro m n hle
  obtain rfl | hm := eq_or_ne m 0
  · exact (nearestNat_of_lt (by decide)).trans_le (Nat.zero_le _)
  have hn : n ≠ 0 := by omega
  have hlog : m.log2 ≤ n.log2 := (Nat.le_log2 hn).2 ((Nat.log2_self_le hm).trans hle)
  obtain hlt | heq := hlog.lt_or_eq
  · calc nearestNat m ≤ 2 ^ (m.log2 + 1) := (nearestNat_bounds hm).2
      _ ≤ 2 ^ n.log2 := Nat.pow_le_pow_right (by decide) hlt
      _ ≤ nearestNat n := (nearestNat_bounds hn).1
  · rw [nearestNat, nearestNat, heq]
    exact Nat.mul_le_mul_right _ (shiftRound_le_shiftRound hle _)

/-- A small number shares its nearest value with no other. -/
theorem eq_of_nearestNat_eq (hm : m < 2 ^ 53) (h : nearestNat m = nearestNat n) : m = n := by
  rw [nearestNat_of_lt hm] at h
  obtain hn | hn := Nat.lt_or_ge n (2 ^ 53)
  · rwa [nearestNat_of_lt hn] at h
  · have hlarge : 2 ^ 53 ≤ nearestNat n :=
      (by decide : 2 ^ 53 ≤ nearestNat (2 ^ 53)).trans (nearestNat_mono hn)
    omega

variable {a b : Int}

theorem nearest_neg (a : Int) : nearest (-a) = -nearest a := by
  rw [nearest, nearest, Int.sign_neg, Int.natAbs_neg, Int.neg_mul]

theorem nearest_natCast (m : Nat) : nearest m = nearestNat m := by
  obtain rfl | hm := eq_or_ne m 0
  · rfl
  · rw [nearest, Int.natAbs_natCast, Int.sign_natCast_of_ne_zero hm, Int.one_mul]

theorem nearest_mono : Monotone nearest := by
  refine monotone_of_odd_of_monotoneOn_nonneg nearest_neg fun a ha b hb hle => ?_
  obtain ⟨m, rfl⟩ := Int.eq_ofNat_of_zero_le ha
  obtain ⟨n, rfl⟩ := Int.eq_ofNat_of_zero_le hb
  rw [nearest_natCast, nearest_natCast]
  exact_mod_cast nearestNat_mono (Int.ofNat_le.1 hle)

/-- The nearest value has the sign of the integer, and the nearest value of its size. -/
theorem natAbs_nearest (a : Int) : (nearest a).natAbs = nearestNat a.natAbs := by
  obtain ⟨m, rfl | rfl⟩ := a.eq_nat_or_neg
  · rw [nearest_natCast, Int.natAbs_natCast, Int.natAbs_natCast]
  · rw [nearest_neg, nearest_natCast, Int.natAbs_neg, Int.natAbs_neg, Int.natAbs_natCast,
      Int.natAbs_natCast]

/-- **A small integer shares its nearest value with no other.** -/
theorem eq_of_nearest_eq (hsmall : a.natAbs < 2 ^ 53 ∨ b.natAbs < 2 ^ 53)
    (h : nearest a = nearest b) : a = b := by
  have habs : nearestNat a.natAbs = nearestNat b.natAbs := by
    rw [← natAbs_nearest, ← natAbs_nearest, h]
  have hsize : a.natAbs = b.natAbs := by
    obtain hsmall | hsmall := hsmall
    · exact eq_of_nearestNat_eq hsmall habs
    · exact (eq_of_nearestNat_eq hsmall habs.symm).symm
  obtain heq | hneg := Int.natAbs_eq_natAbs_iff.1 hsize
  · exact heq
  · -- of two opposite integers with one nearest value, that value is zero
    have hzero : (nearest b).natAbs = 0 := by
      rw [hneg, nearest_neg] at h
      omega
    rw [natAbs_nearest, nearestNat_of_lt (by omega)] at hzero
    omega

/-! ## Doubles of integers, compared -/

/-- The value of the magnitude bits of a finite binary64. -/
def valueOfBits (bits : Nat) : ℚ := Decimal.significand bits * 2 ^ Decimal.scale bits

/-- Bits are ordered as their values are. -/
theorem valueOfBits_strictMono : StrictMono valueOfBits := by
  refine strictMono_nat_of_lt_succ fun bits => ?_
  have hscale : (0 : ℚ) < 2 ^ Decimal.scale bits := by positivity
  rw [valueOfBits, valueOfBits]
  rcases Decimal.succ_cases bits with ⟨hsig, hscale', -⟩ | ⟨hsig, hscale', -⟩
  · rw [hsig, hscale']
    push_cast
    nlinarith
  · have hsig : 2 * (Decimal.significand (bits + 1) : ℚ) = Decimal.significand bits + 1 := by
      exact_mod_cast hsig
    rw [hscale', zpow_add_one₀ two_ne_zero]
    nlinarith

/-- The value of a significand in full length; the next one, which is too long by a bit,
carries into the exponent. -/
theorem valueOfBits_add (e : Nat) {n : Nat} (hlow : 2 ^ 52 ≤ n) (hhigh : n ≤ 2 ^ 53) :
    valueOfBits (e * 2 ^ 52 + n) = n * 2 ^ ((e : Int) - 1074) := by
  have hspan : binary64.mantissaSpan = 2 ^ 52 := rfl
  have hleast : binary64.minExponent = -1074 := rfl
  obtain hlt | rfl := hhigh.lt_or_eq
  · have hdiv : (e * 2 ^ 52 + n) / 2 ^ 52 = e + 1 := by omega
    have hmod : (e * 2 ^ 52 + n) % 2 ^ 52 = n - 2 ^ 52 := by omega
    rw [valueOfBits, Decimal.significand, Decimal.scale, decode, hspan, hleast, hdiv, hmod,
      if_neg (by omega), Nat.add_sub_cancel' hlow]
    congr 2
    push_cast
    ring
  · have hdiv : (e * 2 ^ 52 + 2 ^ 53) / 2 ^ 52 = e + 2 := by omega
    have hmod : (e * 2 ^ 52 + 2 ^ 53) % 2 ^ 52 = 0 := by omega
    have hexp : (-1074 : Int) + (((e + 2 : Nat) : Int) - 1) = ((e : Int) - 1074) + 1 := by
      push_cast
      ring
    rw [valueOfBits, Decimal.significand, Decimal.scale, decode, hspan, hleast, hdiv, hmod,
      if_neg (by omega)]
    simp only [hexp]
    rw [zpow_add_one₀ two_ne_zero]
    push_cast
    ring

/-- How an integer of at most 65 bits is rounded: its length gives the exponent. -/
theorem roundBits_of_long (hm : m ≠ 0) (hlow : 52 ≤ m.log2) (hhigh : m.log2 ≤ 64) :
    binary64.roundBits m 0 = (m.log2 + 1022) * 2 ^ 52 + shiftRound m (m.log2 - 52) := by
  have hinfinity : binary64.infinityBits = 2047 * 2 ^ 52 := rfl
  have hspan : binary64.mantissaSpan = 2 ^ 52 := rfl
  have hsig := (shiftRound_log2_bounds hm hlow).2
  obtain hlow | hlow := hlow.lt_or_eq
  · have hunit : max ((m.log2 : Int) + 0 - binary64.mantissaBits) binary64.minExponent =
        (m.log2 - 52 : Nat) := by
      show max ((m.log2 : Int) + 0 - (52 : Nat)) (-1074) = _
      omega
    have hexp : (((m.log2 - 52 : Nat) : Int) - binary64.minExponent).toNat = m.log2 + 1022 := by
      show (((m.log2 - 52 : Nat) : Int) - (-1074)).toNat = _
      omega
    rw [roundBits, if_neg hm]
    simp only [hunit, hexp, hspan, Int.sub_zero, Int.toNat_natCast]
    rw [if_neg (by omega), Nat.min_eq_left (by omega)]
  · have hnone := shiftRound_mul m 0
    rw [Nat.pow_zero, Nat.mul_one] at hnone
    rw [roundBits_eq hm (by omega), ← hlow, Nat.sub_self, hnone, Nat.pow_zero, Nat.mul_one]

/-- An integer of at most 65 bits is rounded to the bits of its nearest value. -/
theorem valueOfBits_roundBits (hlog : m.log2 ≤ 64) :
    binary64.roundBits m 0 < binary64.infinityBits ∧
      valueOfBits (binary64.roundBits m 0) = nearestNat m := by
  have hinfinity : binary64.infinityBits = 2047 * 2 ^ 52 := rfl
  obtain rfl | hm := eq_or_ne m 0
  · refine ⟨by decide, ?_⟩
    rw [roundBits_zero, nearestNat_of_lt (by decide)]
    norm_num [valueOfBits, Decimal.significand, decode]
  obtain hlow | hlow := Nat.lt_or_ge m.log2 52
  · have hbits := roundBits_eq hm (by omega)
    obtain ⟨hsig, hsig'⟩ := significand_bounds hm (by omega)
    have hexp : ((m.log2 + 1022 : Nat) : Int) - 1074 = -(52 - m.log2 : Nat) := by omega
    refine ⟨by omega, ?_⟩
    rw [hbits, valueOfBits_add _ hsig hsig'.le, nearestNat_of_log2_le hlow.le, hexp, zpow_neg,
      zpow_natCast]
    push_cast
    field_simp
  · have hbits := roundBits_of_long hm hlow hlog
    obtain ⟨hsig, hsig'⟩ := shiftRound_log2_bounds hm hlow
    have hexp : ((m.log2 + 1022 : Nat) : Int) - 1074 = (m.log2 - 52 : Nat) := by omega
    refine ⟨by omega, ?_⟩
    rw [hbits, valueOfBits_add _ hsig hsig', hexp, zpow_natCast, nearestNat]
    push_cast
    rfl

/-- The value of the signed magnitude of a finite binary64. -/
def valueOfKey (k : Int) : ℚ := k.sign * valueOfBits k.natAbs

theorem valueOfKey_neg (k : Int) : valueOfKey (-k) = -valueOfKey k := by
  rw [valueOfKey, valueOfKey, Int.sign_neg, Int.natAbs_neg]
  push_cast
  ring

theorem valueOfKey_natCast (bits : Nat) : valueOfKey bits = valueOfBits bits := by
  obtain rfl | hbits := eq_or_ne bits 0
  · norm_num [valueOfKey, valueOfBits, Decimal.significand, decode]
  · rw [valueOfKey, Int.natAbs_natCast, Int.sign_natCast_of_ne_zero hbits, Int.cast_one, one_mul]

theorem valueOfKey_strictMono : StrictMono valueOfKey := by
  refine strictMono_of_odd_strictMonoOn_nonneg valueOfKey_neg fun a ha b hb hlt => ?_
  obtain ⟨m, rfl⟩ := Int.eq_ofNat_of_zero_le ha
  obtain ⟨n, rfl⟩ := Int.eq_ofNat_of_zero_le hb
  rw [valueOfKey_natCast, valueOfKey_natCast]
  exact valueOfBits_strictMono (Int.ofNat_lt.1 hlt)

/-- The double of an integer of at most 65 bits is finite, and has the nearest value. -/
theorem valueOfKey_ofInt (hlog : a.natAbs.log2 ≤ 64) :
    (key (ofInt a)).natAbs < binary64.infinityBits ∧ valueOfKey (key (ofInt a)) = nearest a := by
  obtain ⟨hfinite, hvalue⟩ := valueOfBits_roundBits hlog
  rw [natAbs_key, key, ofInt, magnitude_ofParts _ hfinite, negative_ofParts _ hfinite]
  refine ⟨hfinite, ?_⟩
  obtain ⟨m, rfl | rfl⟩ := a.eq_nat_or_neg
  · rw [Int.natAbs_natCast] at hvalue ⊢
    rw [if_neg (by simp), valueOfKey_natCast, hvalue, nearest_natCast]
    rfl
  · obtain rfl | hm := eq_or_ne m 0
    · rw [Int.natAbs_neg, Int.natAbs_natCast] at hvalue ⊢
      rw [if_neg (by simp), valueOfKey_natCast, hvalue]
      rfl
    · rw [Int.natAbs_neg, Int.natAbs_natCast] at hvalue ⊢
      rw [if_pos (by simp; omega), valueOfKey_neg, valueOfKey_natCast, hvalue, nearest_neg,
        nearest_natCast]
      push_cast
      rfl

/-- **Doubles of integers are compared as the nearest values are.** -/
theorem compare?_ofInt (ha : a.natAbs.log2 ≤ 64) (hb : b.natAbs.log2 ≤ 64) :
    compare? (ofInt a) (ofInt b) = some (compare (nearest a) (nearest b)) := by
  obtain ⟨hfiniteA, hvalueA⟩ := valueOfKey_ofInt ha
  obtain ⟨hfiniteB, hvalueB⟩ := valueOfKey_ofInt hb
  have hcast : StrictMono fun n : Int => (n : ℚ) := Int.cast_strictMono
  rw [compare?, compareKeys, if_neg (by omega), ← cmp_eq_compare, ← cmp_eq_compare,
    ← valueOfKey_strictMono.cmp_map_eq, hvalueA, hvalueB, hcast.cmp_map_eq]


end Binary64

end VectorBridge
