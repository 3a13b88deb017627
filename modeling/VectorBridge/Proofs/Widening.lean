import Mathlib
import VectorBridge.Metric
import VectorBridge.Proofs.Number
/-!
# Widening loses nothing

A binary32 value is written as the binary64 of the same value, and read as the
nearest binary32 again. For a finite value this changes nothing, so that a vector
of finite components survives being written as numbers. In the wider format the
significand is shifted to its full length; what is rounded off on the way back is
zeros.
-/

namespace VectorBridge

/-! ## Bits that are read and written -/

namespace BinaryFormat

open Float.Model UnpackedFloat

variable {spec : Format} {b : BitVec spec.numBits}

theorem unpackExponent_toNat (b : BitVec spec.numBits) :
    (unpackExponent b).toNat =
      b.toNat / 2 ^ spec.mantissaBitsWithoutImplicit % 2 ^ spec.exponentBits := by
  have he := spec.he
  simp only [unpackExponent, BitVec.toNat_cast, BitVec.extractLsb_toNat,
    Nat.shiftRight_eq_div_pow]
  congr 2
  omega

/-- Bits are put together from their parts. -/
theorem packComponents_unpack (b : BitVec spec.numBits) :
    packComponents spec (Sign.ofBitVec (unpackSign b)) (unpackExponent b) (unpackMantissa b) =
      b := by
  have hsign : ∀ v : BitVec 1, (Sign.ofBitVec v).toBitVec = v := by decide
  have hm := spec.hm
  have he := spec.he
  rw [packComponents, hsign]
  refine BitVec.eq_of_getLsbD_eq fun i hi => ?_
  simp only [unpackSign, unpackExponent, unpackMantissa, BitVec.getLsbD_append,
    BitVec.getLsbD_cast, BitVec.getLsbD_extractLsb]
  grind

/-- Valid bits are kept when they are read and written. -/
theorem pack_unpack (hwide : 2 ≤ spec.exponentBits) (hvalid : spec.Valid b) :
    UnpackedFloat.pack spec (UnpackedFloat.unpack spec b) = b := by
  have hself : ∀ {e m}, unpackExponent b = e → unpackMantissa b = m →
      packComponents spec (Sign.ofBitVec (unpackSign b)) e m = b := by
    rintro _ _ rfl rfl
    exact packComponents_unpack b
  have hmantissa : (unpackMantissa b).toNat < 2 ^ spec.mantissaBitsWithoutImplicit :=
    (unpackMantissa b).isLt
  have hfour : 2 ^ 2 ≤ 2 ^ spec.exponentBits := Nat.pow_le_pow_right (by decide) hwide
  have hbits : spec.mantissaBits = 1 + spec.mantissaBitsWithoutImplicit := rfl
  unfold UnpackedFloat.unpack
  simp only
  split
  · rename_i hexp
    split
    · rename_i hman
      exact hself hexp hman
    · rename_i hman
      exact (hvalid.eq_packedNaN hexp hman).symm
  · rename_i hexp
    split
    · rename_i hzero
      split
      · rename_i hman
        exact hself hzero hman
      · rename_i hman
        -- a subnormal value: its exponent is the least, and its mantissa is not full
        have hlog : (unpackMantissa b).toNat.log2 < spec.mantissaBitsWithoutImplicit := by
          refine (Nat.log2_lt fun h => hman ?_).2 hmantissa
          exact BitVec.eq_of_toNat_eq h
        have hleast : (((unpackExponent b).toNat : Int) -
            (spec.exponentBias + spec.mantissaBitsWithoutImplicit) + 1 + spec.exponentBias +
              spec.mantissaBitsWithoutImplicit).toNat = 1 := by
          rw [hzero, BitVec.toNat_zero]
          omega
        rw [UnpackedFloat.pack]
        simp only [hleast]
        rw [if_neg (by omega), if_neg (by omega), BitVec.ofNat_toNat, BitVec.setWidth_eq]
        exact hself hzero rfl
    · rename_i hzero
      have hfull : (1#1 ++ unpackMantissa b).toNat =
          2 ^ spec.mantissaBitsWithoutImplicit + (unpackMantissa b).toNat := by
        rw [BitVec.toNat_append, ← Nat.shiftLeft_add_eq_or_of_lt hmantissa, Nat.shiftLeft_eq]
        simp
      have hlog : (1#1 ++ unpackMantissa b).toNat.log2 = spec.mantissaBitsWithoutImplicit := by
        rw [hfull, Nat.log2_eq_iff (by omega), Nat.pow_succ]
        omega
      have hbelow : (unpackExponent b).toNat + 1 < 2 ^ spec.exponentBits := by
        have hlt : (unpackExponent b).toNat < 2 ^ spec.exponentBits := (unpackExponent b).isLt
        refine Nat.lt_of_le_of_ne hlt fun h => hexp (BitVec.eq_of_toNat_eq ?_)
        rw [BitVec.neg_one_eq_allOnes, BitVec.toNat_allOnes]
        omega
      have hbiased : (((unpackExponent b).toNat : Int) -
            (spec.exponentBias + spec.mantissaBitsWithoutImplicit) + spec.exponentBias +
              spec.mantissaBitsWithoutImplicit).toNat = (unpackExponent b).toNat := by
        omega
      rw [UnpackedFloat.pack]
      simp only [hbiased, hlog]
      rw [if_neg (by omega), if_pos (by omega), BitVec.ofNat_toNat, BitVec.setWidth_eq]
      refine hself rfl (BitVec.eq_of_toNat_eq ?_)
      rw [BitVec.toNat_ofNat, hfull, Nat.add_mod_left, Nat.mod_eq_of_lt hmantissa]

/-! ## Rounding what fits -/

variable {F : BinaryFormat} {m s : Nat} {q : Int}

/-- Zeros are shifted off without rounding. -/
theorem shiftRound_mul (m s : Nat) : shiftRound (m * 2 ^ s) s = m := by
  have hpos : 0 < 2 ^ s := Nat.two_pow_pos s
  have hdiv : m * 2 ^ s / Nat.pow 2 s = m := Nat.mul_div_cancel m hpos
  have hmod : m * 2 ^ s % Nat.pow 2 s = 0 := Nat.mul_mod_left m _
  rw [shiftRound]
  simp only [hdiv, hmod, Nat.mul_zero]
  exact if_pos hpos

theorem log2_mul_two_pow (hm : m ≠ 0) (s : Nat) : (m * 2 ^ s).log2 = m.log2 + s := by
  have hpos : 0 < 2 ^ s := Nat.two_pow_pos s
  rw [Nat.log2_eq_iff (Nat.mul_ne_zero hm hpos.ne'), Nat.pow_add, Nat.add_right_comm, Nat.pow_add]
  exact ⟨Nat.mul_le_mul_right _ (Nat.log2_self_le hm),
    Nat.mul_lt_mul_of_pos_right Nat.lt_log2_self hpos⟩

theorem roundBits_zero (q : Int) : F.roundBits 0 q = 0 := if_pos rfl

/-- Nothing is rounded off where the unit of the last place is no larger than that of
the value. -/
theorem roundBits_of_fits {unit : Int} (hm : m ≠ 0)
    (hunit : max (m.log2 + q - F.mantissaBits) F.minExponent = unit) (hfits : unit ≤ q) :
    F.roundBits m q =
      min ((unit - F.minExponent).toNat * F.mantissaSpan + m * 2 ^ (q - unit).toNat)
        F.infinityBits := by
  subst hunit
  rw [roundBits, if_neg hm]
  simp only [if_pos hfits]
  rfl

/-- A value is rounded alike however its significand is shifted, if it fits. -/
theorem roundBits_shift (hm : m ≠ 0)
    (hfits : max (m.log2 + q - F.mantissaBits) F.minExponent ≤ q) (s : Nat) :
    F.roundBits (m * 2 ^ s) (q - s) = F.roundBits m q := by
  have hpos : 0 < 2 ^ s := Nat.two_pow_pos s
  rw [roundBits, roundBits, if_neg (Nat.mul_ne_zero hm hpos.ne'), if_neg hm, log2_mul_two_pow hm]
  have hunit : (((m.log2 + s : Nat) : Int) + (q - s) - F.mantissaBits) =
      m.log2 + q - F.mantissaBits := by
    push_cast
    omega
  simp only [hunit]
  generalize max ((m.log2 : Int) + q - F.mantissaBits) F.minExponent = unit at hfits ⊢
  rw [if_pos hfits]
  congr 2
  split
  · rename_i hle
    have hsum : (q - unit).toNat = s + (q - s - unit).toNat := by omega
    rw [hsum, Nat.mul_assoc]
    exact congrArg (m * ·) (Nat.pow_add 2 s _).symm
  · rename_i hlt
    have hsum : s = (q - unit).toNat + (unit - (q - s)).toNat := by omega
    have hparts : m * 2 ^ s = m * 2 ^ (q - unit).toNat * 2 ^ (unit - (q - s)).toNat := by
      rw [Nat.mul_assoc, ← Nat.pow_add, ← hsum]
    rw [hparts]
    exact shiftRound_mul _ _

theorem mantissaSpan_eq (F : BinaryFormat) : F.mantissaSpan = 2 ^ F.mantissaBits := rfl

theorem log2_add_span {f : Nat} (hf : f < F.mantissaSpan) :
    (F.mantissaSpan + f).log2 = F.mantissaBits := by
  rw [mantissaSpan_eq] at hf ⊢
  rw [Nat.log2_eq_iff (by omega), Nat.pow_succ]
  omega

/-- The value of some bits is rounded to these bits. -/
theorem roundBits_decode {bits : Nat} (h : bits ≤ F.infinityBits) :
    F.roundBits (F.decode bits).1 (F.decode bits).2 = bits := by
  have hpos : 0 < F.mantissaSpan := Nat.two_pow_pos _
  have hparts := Nat.div_add_mod' bits F.mantissaSpan
  have hmod := Nat.mod_lt bits hpos
  rw [decode]
  generalize bits / F.mantissaSpan = e at hparts ⊢
  generalize bits % F.mantissaSpan = f at hparts hmod ⊢
  split
  · rename_i he
    rw [he, Nat.zero_mul, Nat.zero_add] at hparts
    rw [← hparts] at h ⊢
    by_cases hf : f = 0
    · rw [hf]
      rfl
    · -- a subnormal value, of the least exponent
      have hlog : f.log2 < F.mantissaBits := (Nat.log2_lt hf).2 hmod
      have hunit : max ((f.log2 : Int) + F.minExponent - F.mantissaBits) F.minExponent =
          F.minExponent := max_eq_right (by omega)
      rw [roundBits_of_fits hf hunit le_rfl]
      simpa using h
  · rename_i he
    obtain ⟨k, rfl⟩ := Nat.exists_eq_add_one_of_ne_zero he
    have hunit : max (((F.mantissaSpan + f).log2 : Int) +
        (F.minExponent + (((k + 1 : Nat) : Int) - 1)) - F.mantissaBits) F.minExponent =
          F.minExponent + k := by
      rw [log2_add_span hmod, max_eq_left (by omega)]
      omega
    have hexp : (F.minExponent + (k : Int) - F.minExponent).toNat = k := by omega
    have hnone : (F.minExponent + (((k + 1 : Nat) : Int) - 1) - (F.minExponent + k)).toNat = 0 := by
      omega
    rw [roundBits_of_fits (by omega) hunit (by omega), hexp, hnone, Nat.pow_zero, Nat.mul_one]
    rw [Nat.succ_mul] at hparts
    rw [min_eq_left (by omega)]
    omega

/-- A value that is normal in a format has its significand there in full length. -/
theorem decode_roundBits (hm : m ≠ 0) (hlog : m.log2 ≤ F.mantissaBits)
    (hnormal : F.minExponent ≤ m.log2 + q - F.mantissaBits)
    (hfinite : F.roundBits m q < F.infinityBits) :
    F.decode (F.roundBits m q) =
      (m * 2 ^ (F.mantissaBits - m.log2), q - (F.mantissaBits - m.log2 : Nat)) := by
  -- the significand, shifted to its full length
  have hlow : F.mantissaSpan ≤ m * 2 ^ (F.mantissaBits - m.log2) := by
    calc F.mantissaSpan = 2 ^ m.log2 * 2 ^ (F.mantissaBits - m.log2) := by
          rw [← Nat.pow_add, Nat.add_sub_cancel' hlog, mantissaSpan_eq]
      _ ≤ m * 2 ^ (F.mantissaBits - m.log2) := Nat.mul_le_mul_right _ (Nat.log2_self_le hm)
  have hhigh : m * 2 ^ (F.mantissaBits - m.log2) < 2 * F.mantissaSpan := by
    calc m * 2 ^ (F.mantissaBits - m.log2)
        < 2 ^ (m.log2 + 1) * 2 ^ (F.mantissaBits - m.log2) :=
          Nat.mul_lt_mul_of_pos_right Nat.lt_log2_self (Nat.two_pow_pos _)
      _ = 2 * F.mantissaSpan := by
          rw [← Nat.pow_add, mantissaSpan_eq, ← Nat.pow_succ']
          congr 1
          omega
  obtain ⟨e, he⟩ : ∃ e : Nat, (m.log2 : Int) + q - F.mantissaBits = F.minExponent + e :=
    ⟨((m.log2 : Int) + q - F.mantissaBits - F.minExponent).toNat, by omega⟩
  have hshift : (q - (F.minExponent + e)).toNat = F.mantissaBits - m.log2 := by omega
  have hexp : (F.minExponent + (e : Int) - F.minExponent).toNat = e := by omega
  have hbits : F.roundBits m q =
      e * F.mantissaSpan + m * 2 ^ (F.mantissaBits - m.log2) := by
    have hunit : max ((m.log2 : Int) + q - F.mantissaBits) F.minExponent = F.minExponent + e := by
      rw [he, max_eq_left (by omega)]
    have hmin := roundBits_of_fits hm hunit (by omega)
    rw [hshift, hexp] at hmin
    rw [hmin] at hfinite ⊢
    exact min_eq_left (le_of_not_ge fun hle => absurd hfinite (by simp [hle]))
  have hsplit : F.roundBits m q = (e + 1) * F.mantissaSpan +
      (m * 2 ^ (F.mantissaBits - m.log2) - F.mantissaSpan) := by
    rw [hbits, Nat.succ_mul]
    omega
  have hdiv : F.roundBits m q / F.mantissaSpan = e + 1 := by
    rw [hsplit, Nat.add_comm, Nat.add_mul_div_right _ _ (by omega), Nat.div_eq_of_lt (by omega),
      Nat.zero_add]
  have hmod : F.roundBits m q % F.mantissaSpan =
      m * 2 ^ (F.mantissaBits - m.log2) - F.mantissaSpan := by
    rw [hsplit, Nat.mul_add_mod', Nat.mod_eq_of_lt (by omega)]
  rw [decode, hdiv, hmod, if_neg (by omega), Nat.add_sub_cancel' hlow]
  congr 1
  push_cast
  omega

end BinaryFormat

open BinaryFormat

/-! ## Values and their parts -/

namespace Binary32

/-- A value is known by its bits. -/
theorem ofBits_toBits (x : Float32) : Float32.ofBits x.toBits = x := by
  have hmodel : ∀ a b : Float32.Model, a.toBits = b.toBits → a = b := by
    rintro ⟨_, _⟩ ⟨_, _⟩ rfl
    rfl
  have hkept := @pack_unpack .binary32 _ (by decide) x.toModel.valid
  exact congrArg Float32.ofModel (hmodel _ _ (congrArg UInt32.ofBitVec hkept))

/-- A value is that of its sign and its magnitude. -/
theorem ofParts_self (x : Float32) : ofParts (negative x) (magnitude x) = x := by
  have hlt : x.toBits.toNat < 2 ^ 32 := x.toBits.toNat_lt
  have hbits : (if negative x then magnitude x + Word.half32 else magnitude x) =
      x.toBits.toNat := by
    have hhalf : Word.half32 = 2 ^ 31 := rfl
    simp only [negative, magnitude, decide_eq_true_eq, hhalf]
    split <;> omega
  rw [ofParts, hbits, UInt32.ofNat_toNat, ofBits_toBits]

end Binary32

namespace Binary64

/-- Finite bits are kept. -/
theorem toBits_ofParts (sign : Bool) {bits : Nat} (h : bits < binary64.infinityBits) :
    (ofParts sign bits).toBits.toNat = if sign then bits + Word.half64 else bits := by
  have hlt : bits < 2047 * 2 ^ 52 := h
  have hhalf : Word.half64 = 2 ^ 63 := rfl
  generalize hn : (if sign then bits + Word.half64 else bits) = n
  have hfits : n < 2 ^ 64 := by
    rw [← hn, hhalf]
    split <;> omega
  have hkept : (UInt64.ofNat n).toNat = n := UInt64.toNat_ofNat_of_lt hfits
  have hvalid : Float.Model.Format.binary64.Valid (UInt64.ofNat n).toBitVec := by
    refine ⟨fun hexp => ?_⟩
    -- the exponent is below that of infinity
    have hexponent := @unpackExponent_toNat .binary64 (UInt64.ofNat n).toBitVec
    rw [hexp] at hexponent
    have hall : 2 ^ 11 - 1 = (UInt64.ofNat n).toNat / 2 ^ 52 % 2 ^ 11 := hexponent
    rw [hkept, ← hn, hhalf] at hall
    split at hall <;> omega
  have hmodel := @pack_unpack .binary64 _ (by decide) hvalid
  have hbits : (ofParts sign bits).toBits = UInt64.ofNat n := by
    rw [ofParts, hn]
    exact congrArg UInt64.ofBitVec hmodel
  rw [hbits, hkept]

theorem magnitude_ofParts (sign : Bool) {bits : Nat} (h : bits < binary64.infinityBits) :
    magnitude (ofParts sign bits) = bits := by
  have hlt : bits < 2047 * 2 ^ 52 := h
  have hhalf : Word.half64 = 2 ^ 63 := rfl
  rw [magnitude, toBits_ofParts sign h, hhalf]
  split <;> omega

theorem negative_ofParts (sign : Bool) {bits : Nat} (h : bits < binary64.infinityBits) :
    negative (ofParts sign bits) = sign := by
  have hlt : bits < 2047 * 2 ^ 52 := h
  have hhalf : Word.half64 = 2 ^ 63 := rfl
  rw [negative, toBits_ofParts sign h, hhalf]
  cases sign
  · simp
    omega
  · simp

end Binary64

/-! ## Widening and narrowing -/

namespace Binary32

variable {x : Float32}

/-- A finite binary32 is a normal binary64, unless it is zero: its significand and
exponent are those of the binary64. -/
theorem decode_bounds (h : isFinite x = true) :
    (binary32.decode (magnitude x)).1 < 2 ^ 24 ∧ -149 ≤ (binary32.decode (magnitude x)).2 ∧
      (binary32.decode (magnitude x)).2 ≤ 104 := by
  have hlt : magnitude x < 255 * 2 ^ 23 := of_decide_eq_true h
  have hspan : binary32.mantissaSpan = 2 ^ 23 := rfl
  have hleast : binary32.minExponent = -149 := rfl
  rw [decode, hspan, hleast]
  split
  · simp only
    omega
  · simp only
    omega

/-- What a finite binary32 is widened to. -/
theorem widen_of_finite (h : isFinite x = true) :
    widen x = Binary64.ofParts (negative x) (binary64.roundBits
      (binary32.decode (magnitude x)).1 (binary32.decode (magnitude x)).2) := by
  have hlt : magnitude x < binary32.infinityBits := of_decide_eq_true h
  have hnumber : ¬ isNaN x = true := by
    rw [isNaN, decide_eq_true_eq]
    omega
  rw [widen]
  simp only [if_neg hnumber, if_neg (Nat.ne_of_lt hlt)]

/-- A binary32 that is not zero is a normal binary64. -/
theorem roundBits_lt_infinity {m : Nat} {q : Int} (hm : m ≠ 0) (hlt : m < 2 ^ 24)
    (hlow : -149 ≤ q) (hhigh : q ≤ 104) :
    binary64.roundBits m q < binary64.infinityBits ∧
      binary64.decode (binary64.roundBits m q) =
        (m * 2 ^ (52 - m.log2), q - (52 - m.log2 : Nat)) := by
  have hlog : m.log2 < 24 := (Nat.log2_lt hm).2 hlt
  have hleast : binary64.minExponent = -1074 := rfl
  have hlength : binary64.mantissaBits = 52 := rfl
  have hinfinity : binary64.infinityBits = 2047 * 2 ^ 52 := rfl
  have hspan : binary64.mantissaSpan = 2 ^ 52 := rfl
  have hunit : max ((m.log2 : Int) + q - binary64.mantissaBits) binary64.minExponent =
      m.log2 + q - 52 := by
    rw [hleast, hlength]
    omega
  have hbits := roundBits_of_fits hm hunit (by omega)
  have hsig := Binary64.significand_bounds hm (by omega : m.log2 < 53)
  have hshift : (q - ((m.log2 : Int) + q - 52)).toNat = 52 - m.log2 := by omega
  rw [hshift, hleast, hspan, hinfinity] at hbits
  have hfinite : binary64.roundBits m q < binary64.infinityBits := by
    rw [hbits, hinfinity]
    omega
  exact ⟨hfinite, decode_roundBits hm (by omega) (by omega) hfinite⟩

/-- **Widening a finite value loses nothing.** -/
theorem narrow_widen (h : isFinite x = true) :
    Binary64.isFinite (widen x) = true ∧ narrow (widen x) = x := by
  have hlt : magnitude x < binary32.infinityBits := of_decide_eq_true h
  obtain ⟨hm, hlow, hhigh⟩ := decode_bounds h
  have hback := roundBits_decode (F := binary32) (Nat.le_of_lt hlt)
  rw [widen_of_finite h]
  generalize (binary32.decode (magnitude x)).1 = m at hm hback
  generalize (binary32.decode (magnitude x)).2 = q at hlow hhigh hback
  obtain ⟨hfinite, hrounds⟩ : binary64.roundBits m q < binary64.infinityBits ∧
      binary32.roundBits (binary64.decode (binary64.roundBits m q)).1
        (binary64.decode (binary64.roundBits m q)).2 = magnitude x := by
    by_cases hzero : m = 0
    · have hpositive : 0 < binary64.infinityBits := by decide
      have hdecode : binary64.decode 0 = (0, binary64.minExponent) := rfl
      rw [← hback, hzero, roundBits_zero, hdecode, roundBits_zero, roundBits_zero]
      exact ⟨hpositive, rfl⟩
    · obtain ⟨hfinite, hdecode⟩ := roundBits_lt_infinity hzero hm hlow hhigh
      refine ⟨hfinite, ?_⟩
      have hlog : m.log2 < 24 := (Nat.log2_lt hzero).2 hm
      have hleast : binary32.minExponent = -149 := rfl
      have hlength : binary32.mantissaBits = 23 := rfl
      rw [hdecode, roundBits_shift hzero (by omega), hback]
  have hnumber : ¬ Binary64.isNaN
      (Binary64.ofParts (negative x) (binary64.roundBits m q)) = true := by
    rw [Binary64.isNaN, Binary64.magnitude_ofParts _ hfinite, decide_eq_true_eq]
    omega
  constructor
  · rw [Binary64.isFinite, Binary64.magnitude_ofParts _ hfinite]
    exact decide_eq_true hfinite
  · rw [narrow]
    simp only [if_neg hnumber, Binary64.magnitude_ofParts _ hfinite,
      Binary64.negative_ofParts _ hfinite, if_neg (Nat.ne_of_lt hfinite), hrounds]
    exact ofParts_self x

/-- **What is not finite does not become so when it is widened.** -/
theorem isFinite_of_widen (h : Binary64.isFinite (widen x) = true) : isFinite x = true := by
  by_cases hfinite : isFinite x = true
  · exact hfinite
  have hle : binary32.infinityBits ≤ magnitude x := by
    rw [isFinite, decide_eq_true_eq] at hfinite
    omega
  -- only the sign is left of an infinity, and of what is no number
  have hbeyond : ∀ sign, Binary64.isFinite (Binary64.ofParts sign binary64.infinityBits) = false ∧
      Binary64.isFinite
        (Binary64.ofParts sign (binary64.infinityBits + 0x8000000000000)) = false := by
    decide +kernel
  rw [widen] at h
  by_cases hnumber : isNaN x = true
  · simp only [if_pos hnumber, (hbeyond _).2] at h
    cases h
  · have heq : magnitude x = binary32.infinityBits := by
      rw [isNaN, decide_eq_true_eq] at hnumber
      omega
    simp only [if_neg hnumber, if_pos heq, (hbeyond _).1] at h
    cases h

end Binary32

/-- A vector of finite components. -/
def Embedding.Finite (v : Embedding) : Prop := ∀ x ∈ v, Binary32.isFinite x = true

/-- **A finite vector is read off the numbers that it is written as.** -/
theorem Embedding.ofNumbers_map {v : Embedding} (h : v.Finite) :
    Embedding.ofNumbers (v.map Json.ofFloat32) = v := by
  rw [ofNumbers, List.filterMap_map]
  refine (List.filterMap_congr fun x hx => ?_).trans List.filterMap_some
  obtain ⟨hfinite, hback⟩ := Binary32.narrow_widen (h x hx)
  rw [Function.comp_apply, Json.ofFloat32, Json.ofFloat, if_pos hfinite]
  exact congrArg some hback

/-- What is read off numbers that a vector is written as is finite: a component that is not
is written as none. -/
theorem Embedding.finite_ofNumbers (v : Embedding) :
    (Embedding.ofNumbers (v.map Json.ofFloat32)).Finite := by
  intro x hx
  obtain ⟨j, hj, hread⟩ := List.mem_filterMap.1 hx
  obtain ⟨y, -, rfl⟩ := List.mem_map.1 hj
  rw [Json.ofFloat32, Json.ofFloat] at hread
  split at hread
  · rename_i hwide
    have hfinite := Binary32.isFinite_of_widen hwide
    obtain rfl : Binary32.narrow (Binary32.widen y) = x := Option.some.inj hread
    rwa [(Binary32.narrow_widen hfinite).2]
  · cases hread

end VectorBridge
