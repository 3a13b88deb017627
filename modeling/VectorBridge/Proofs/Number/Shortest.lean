import Mathlib
import VectorBridge.Number.Shortest
import VectorBridge.Proofs.Widening
/-!
# Shortest decimals tell values apart

A binary64 is written by a decimal out of the reals that round to it. The reals that round to
a value and those that round to the next one have a single point in common at most, and such a
point belongs to the even one of the two. So different magnitudes are written by decimals of
different values, for which it does not matter that the decimals are short.
-/

namespace VectorBridge

namespace Decimal

/-- The value of a decimal. -/
def value (d : Decimal) : ℚ := d.digits * 10 ^ d.exponent

theorem value_stripZeros (fuel : Nat) (d : Decimal) : (stripZeros fuel d).value = d.value := by
  induction fuel generalizing d with
  | zero => rfl
  | succ fuel ih =>
    rw [stripZeros]
    split
    · rename_i hzero
      have hdigits : (d.digits : ℚ) = (d.digits / 10 : Nat) * 10 := by
        exact_mod_cast (Nat.div_mul_cancel (Nat.dvd_of_mod_eq_zero hzero.2)).symm
      rw [ih, value, value, zpow_add_one₀ (by norm_num), hdigits]
      ring
    · rfl

/-! ## The reals that round to a value -/

namespace RoundingInterval

variable {I : RoundingInterval} {n : Nat}

/-- Whatever grid is tried, what is found lies in the interval. -/
theorem holds_shortest (h : I.holds I.centre = true) (drop : Nat) :
    I.holds (I.shortest drop) = true := by
  induction drop with
  | zero => exact h
  | succ drop ih =>
    rw [shortest]
    simp only
    split
    · rename_i hboth
      rw [Bool.and_eq_true] at hboth
      split_ifs
      · exact hboth.1
      · exact hboth.2
      · exact hboth.1
      · exact hboth.2
    · split_ifs with hlower hupper
      · exact hlower
      · exact hupper
      · exact ih

theorem holds_iff : I.holds n = true ↔
    if I.closed then I.low ≤ 4 * n ∧ 4 * n ≤ I.high else I.low < 4 * n ∧ 4 * n < I.high := by
  unfold holds
  split <;> simp only [Bool.and_eq_true, decide_eq_true_eq]

end RoundingInterval

open BinaryFormat

/-- The significand of a magnitude. -/
def significand (bits : Nat) : Nat := (binary64.decode bits).1

/-- The exponent of a magnitude. -/
def scale (bits : Nat) : Int := (binary64.decode bits).2

/-- Whether the value below is half as far away as the one above. -/
def narrow (bits : Nat) : Prop :=
  bits % binary64.mantissaSpan = 0 ∧ 1 < bits / binary64.mantissaSpan

instance (bits : Nat) : Decidable (narrow bits) := inferInstanceAs (Decidable (_ ∧ _))

/-- The decimal unit in the last place of a magnitude. -/
def unit (bits : Nat) : Nat :=
  if scale bits < 0 then Nat.pow 5 (scale bits).natAbs else Nat.pow 2 (scale bits).natAbs

/-- The reals that round to a magnitude. -/
def interval (bits : Nat) : RoundingInterval where
  centre := significand bits * unit bits
  low := 4 * (significand bits * unit bits) - if narrow bits then unit bits else 2 * unit bits
  high := 4 * (significand bits * unit bits) + 2 * unit bits
  closed := significand bits % 2 = 0

theorem ofBits_eq (bits : Nat) :
    ofBits bits =
      stripZeros (digitCount ((interval bits).shortest (digitCount (interval bits).centre)))
        { digits := (interval bits).shortest (digitCount (interval bits).centre)
          exponent := min (scale bits) 0 } := rfl

theorem unit_pos (bits : Nat) : 0 < unit bits := by
  unfold unit
  split
  · exact Nat.pow_pos (by decide)
  · exact Nat.pow_pos (by decide)

/-- The decimal unit is the binary one. -/
theorem unit_mul (bits : Nat) : (unit bits : ℚ) * 10 ^ min (scale bits) 0 = 2 ^ scale bits := by
  unfold unit
  generalize scale bits = q
  split
  · rename_i hneg
    obtain ⟨k, rfl⟩ : ∃ k : Nat, q = -k := ⟨q.natAbs, by omega⟩
    have habs : (-(k : Int)).natAbs = k := by omega
    have hten : (10 : ℚ) ^ k = 5 ^ k * 2 ^ k := by rw [← mul_pow]; norm_num
    rw [min_eq_left (by omega), habs, zpow_neg, zpow_neg, zpow_natCast, zpow_natCast, hten]
    show ((5 ^ k : Nat) : ℚ) * _ = _
    push_cast
    field_simp
  · rename_i hpos
    obtain ⟨k, rfl⟩ : ∃ k : Nat, q = k := ⟨q.natAbs, by omega⟩
    rw [min_eq_right (by omega), zpow_zero, mul_one, zpow_natCast]
    show ((2 ^ k : Nat) : ℚ) = _
    push_cast
    rfl

/-- A value rounds to itself. -/
theorem holds_centre (bits : Nat) : (interval bits).holds (interval bits).centre = true := by
  have hunit := unit_pos bits
  rw [RoundingInterval.holds_iff]
  simp only [interval, decide_eq_true_eq]
  split
  · omega
  · have hsig : 0 < significand bits := by omega
    have hcentre : 0 < significand bits * unit bits := Nat.mul_pos hsig hunit
    split <;> omega

/-! ## Neighbouring values -/

/-- Four times the end that a magnitude's interval has in common with the next one. -/
def upper (bits : Nat) : ℚ := (4 * significand bits + 2) * 2 ^ scale bits

/-- Four times the end that a magnitude's interval has in common with the one before. -/
def lower (bits : Nat) : ℚ :=
  (4 * significand bits - if narrow bits then 1 else 2) * 2 ^ scale bits

theorem lower_lt_upper (bits : Nat) : lower bits < upper bits := by
  have hscale : (0 : ℚ) < 2 ^ scale bits := by positivity
  refine mul_lt_mul_of_pos_right ?_ hscale
  split <;> linarith

/-- The next magnitude has the next significand, or the least one of the next exponent. -/
theorem succ_cases (bits : Nat) :
    (significand (bits + 1) = significand bits + 1 ∧ scale (bits + 1) = scale bits ∧
      ¬ narrow (bits + 1)) ∨
    (2 * significand (bits + 1) = significand bits + 1 ∧ scale (bits + 1) = scale bits + 1 ∧
      narrow (bits + 1)) := by
  have hspan : binary64.mantissaSpan = 2 ^ 52 := rfl
  have hleast : binary64.minExponent = -1074 := rfl
  simp only [significand, scale, decode, narrow, hspan, hleast]
  split_ifs <;> omega

/-- Intervals of neighbours meet. -/
theorem lower_succ (bits : Nat) : lower (bits + 1) = upper bits := by
  rw [lower, upper]
  rcases succ_cases bits with ⟨hsig, hscale, hwide⟩ | ⟨hsig, hscale, hnarrow⟩
  · rw [if_neg hwide, hsig, hscale]
    push_cast
    ring
  · have hsig : 2 * (significand (bits + 1) : ℚ) = significand bits + 1 := by exact_mod_cast hsig
    rw [if_pos hnarrow, hscale, zpow_add_one₀ two_ne_zero]
    linear_combination (4 * 2 ^ scale bits) * hsig

theorem upper_strictMono : StrictMono upper :=
  strictMono_nat_of_lt_succ fun bits => lower_succ bits ▸ lower_lt_upper (bits + 1)

theorem significand_mod (bits : Nat) : significand bits % 2 = bits % 2 := by
  have hspan : binary64.mantissaSpan = 2 ^ 52 := rfl
  rw [significand, decode, hspan]
  split
  · simp only
    omega
  · simp only
    omega

theorem value_ofBits (bits : Nat) :
    ∃ n : Nat, (interval bits).holds n = true ∧
      4 * (ofBits bits).value = 4 * n * 10 ^ min (scale bits) 0 := by
  refine ⟨(interval bits).shortest (digitCount (interval bits).centre),
    RoundingInterval.holds_shortest (holds_centre bits) _, ?_⟩
  rw [ofBits_eq, value_stripZeros, value, mul_assoc]

/-- The ends of the interval, in binary units. -/
theorem ends_mul (bits : Nat) :
    lower bits ≤ (interval bits).low * 10 ^ min (scale bits) 0 ∧
      (interval bits).high * 10 ^ min (scale bits) 0 = upper bits := by
  have hunit := unit_mul bits
  constructor
  · have hlow : (4 * significand bits - (if narrow bits then 1 else 2)) * (unit bits : ℚ) ≤
        (interval bits).low := by
      -- the subtraction of the natural numbers may be cut off
      have hsub : ∀ a b : Nat, (a : ℚ) - b ≤ (a - b : Nat) := fun a b => by
        rw [sub_le_iff_le_add]
        exact_mod_cast le_tsub_add
      rw [interval]
      refine le_trans (le_of_eq ?_) (hsub _ _)
      split <;> push_cast <;> ring
    calc lower bits = (4 * significand bits - (if narrow bits then 1 else 2)) * (unit bits : ℚ) *
          10 ^ min (scale bits) 0 := by rw [lower, ← hunit, mul_assoc]
      _ ≤ _ := mul_le_mul_of_nonneg_right hlow (by positivity)
  · rw [upper, ← hunit, interval]
    push_cast
    ring

/-- The decimal of a magnitude rounds to it, and an end of the interval belongs to an even
one only. -/
theorem value_bounds (bits : Nat) :
    (lower bits ≤ 4 * (ofBits bits).value ∧ 4 * (ofBits bits).value ≤ upper bits) ∧
      (bits % 2 = 1 →
        lower bits < 4 * (ofBits bits).value ∧ 4 * (ofBits bits).value < upper bits) := by
  obtain ⟨n, hholds, hvalue⟩ := value_ofBits bits
  obtain ⟨hlower, hupper⟩ := ends_mul bits
  have hten : (0 : ℚ) < 10 ^ min (scale bits) 0 := by positivity
  rw [RoundingInterval.holds_iff] at hholds
  rw [hvalue, ← hupper]
  generalize (10 : ℚ) ^ min (scale bits) 0 = unit at hlower hten
  have hle : ∀ {a b : Nat}, a ≤ b → (a : ℚ) * unit ≤ b * unit := fun h =>
    mul_le_mul_of_nonneg_right (by exact_mod_cast h) hten.le
  have hlt : ∀ {a b : Nat}, a < b → (a : ℚ) * unit < b * unit := fun h =>
    mul_lt_mul_of_pos_right (by exact_mod_cast h) hten
  have hfour : (4 * n : ℚ) = (4 * n : Nat) := by push_cast; rfl
  rw [hfour]
  have hweak : (interval bits).low ≤ 4 * n ∧ 4 * n ≤ (interval bits).high := by
    split at hholds
    · exact hholds
    · exact ⟨hholds.1.le, hholds.2.le⟩
  refine ⟨⟨hlower.trans (hle hweak.1), hle hweak.2⟩, fun hodd => ?_⟩
  have hopen : ¬ (interval bits).closed = true := by
    have := significand_mod bits
    simp only [interval, decide_eq_true_eq]
    omega
  rw [if_neg hopen] at hholds
  exact ⟨hlower.trans_lt (hlt hholds.1), hlt hholds.2⟩

/-- **Different magnitudes are written by decimals of different values.** -/
theorem value_ofBits_injective : Function.Injective fun bits => (ofBits bits).value := by
  have hne : ∀ {a b : Nat}, a < b → (ofBits a).value ≠ (ofBits b).value := by
    intro a b hab heq
    obtain ⟨c, rfl⟩ := Nat.exists_eq_add_of_lt hab
    have hmeet := upper_strictMono.monotone (Nat.le_add_right a c)
    have hlower := lower_succ (a + c)
    obtain ⟨⟨-, ha⟩, haodd⟩ := value_bounds a
    obtain ⟨⟨hb, -⟩, hbodd⟩ := value_bounds (a + c + 1)
    rw [heq] at ha haodd
    -- both are the common end, and the one of the two that is odd does not have it
    have hsame : upper a = upper (a + c) := le_antisymm hmeet (by linarith)
    obtain rfl : c = 0 := by
      have := upper_strictMono.injective hsame
      omega
    rcases Nat.mod_two_eq_zero_or_one a with h | h
    · linarith [(hbodd (by omega)).1]
    · linarith [(haodd h).2]
  intro a b heq
  rcases Nat.lt_trichotomy a b with hlt | rfl | hlt
  · exact absurd heq (hne hlt)
  · rfl
  · exact absurd heq.symm (hne hlt)

end Decimal

end VectorBridge
