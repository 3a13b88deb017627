import VectorBridge.Number.Basic
/-!
# Reading numbers

How the decimal text of a number becomes a value. Leading digits are
gathered into a 64-bit significand for as long as they fit; of the digits
that do not, those before the point only scale the value and those after
it are dropped. The significand is then rounded once and scaled by a power
of ten with one multiplication or division for every 308 places, so a long
decimal need not be the nearest binary64 to its text. A value beyond the
largest binary64 is refused.
-/

namespace VectorBridge

/-- The parts of a written number. -/
structure NumberParts where
  negative : Bool
  whole : List Nat
  /-- Digits after the point; absent without a point. -/
  fraction : Option (List Nat)
  /-- The exponent's sign and digits; absent without an exponent. -/
  exponent : Option (Bool × List Nat)
  deriving Repr

namespace NumberParts

/-- Appends digits to a significand while the result fits in 64 bits;
returns the significand and the digits left over. -/
def absorb : Nat → List Nat → Nat × List Nat
  | m, [] => (m, [])
  | m, d :: ds => if m * 10 + d < Word.span64 then absorb (m * 10 + d) ds else (m, d :: ds)

/-- Ten to the `k` as the nearest binary64. -/
def powerOfTen (k : Nat) : Float :=
  Binary64.ofParts false (BinaryFormat.binary64.roundBits (Nat.pow 10 k) 0)

/-- The value `f * 10 ^ exponent`. Scaling upwards must stay finite; a deep
exponent is taken in steps of 308, at most `fuel` of them. -/
def scale (fuel : Nat) (f : Float) (exponent : Int) : Option Float :=
  if exponent.natAbs ≤ 308 then
    if 0 ≤ exponent then
      let g := f * powerOfTen exponent.toNat
      if Binary64.isFinite g then some g else none
    else some (f / powerOfTen exponent.natAbs)
  else if Binary64.magnitude f = 0 then some f
  else if 0 ≤ exponent then none
  else match fuel with
    | 0 => some f
    | fuel + 1 => scale fuel (f / powerOfTen 308) (exponent + 308)

/-- The exponent's magnitude, absent when it leaves the 32-bit range. -/
def exponentMagnitude (digits : List Nat) : Option Nat :=
  let e := digits.foldl (fun e d => min (e * 10 + d) Word.half32) 0
  if e < Word.half32 then some e else none

/-- Keeps an exponent in the signed 32-bit range. -/
def clampExponent (e : Int) : Int := max (-Word.half32) (min e (Word.half32 - 1))

/-- The value of a written number; absent when it is out of range. Without
point, exponent or excess digits it is an integer, except for a negative
zero and for what lies below the signed range. -/
def value? (p : NumberParts) : Option Number :=
  let (whole, excess) := absorb 0 p.whole
  if p.fraction.isNone && p.exponent.isNone && excess.isEmpty &&
      (!p.negative || (0 < whole && whole ≤ Word.half64)) then
    some (.int (if p.negative then -whole else whole))
  else
    let fraction := p.fraction.getD []
    let (significand, dropped) := absorb whole fraction
    let start : Int := excess.length - (fraction.length - dropped.length : Nat)
    let signed (f : Float) : Number := .flt (if p.negative then -f else f)
    match p.exponent with
    | none => (scale 16 (Binary64.ofInt significand) start).map signed
    | some (positive, digits) =>
      match exponentMagnitude digits with
      | none =>
        if significand ≠ 0 ∧ positive then none else some (signed (Binary64.ofParts false 0))
      | some e =>
        let exponent := clampExponent (if positive then start + e else start - e)
        (scale 16 (Binary64.ofInt significand) exponent).map signed

end NumberParts

end VectorBridge
