/-!
# Binary floating point, through its bits

Order, rounding and change of width of binary64 and binary32 values, all
by exact integer arithmetic on the bits. `roundBits` is the one rounding:
the nearest value of a format, ties to the even significand. Reading an
integer as a binary64 and narrowing a binary64 to a binary32 are both that
rounding, and widening loses nothing.
-/

namespace VectorBridge

/-! ## Spans of machine words

How many values words of 32 and 64 bits hold, and half as many.
-/

namespace Word

/-- Half the values of 32 bits. -/
abbrev half32 : Nat := 0x80000000

/-- Half the values of 64 bits. -/
abbrev half64 : Nat := 0x8000000000000000

/-- The values of 64 bits. -/
abbrev span64 : Nat := 0x10000000000000000

end Word

/-! ## Formats -/

/-- A binary format: `mantissaBits` stored significand bits, the exponent of
the least positive value, and the bit pattern of infinity. -/
structure BinaryFormat where
  mantissaBits : Nat
  minExponent : Int
  infinityBits : Nat
  deriving Repr, DecidableEq

/-- How many significands of one exponent there are. -/
def BinaryFormat.mantissaSpan (F : BinaryFormat) : Nat := Nat.pow 2 F.mantissaBits

/-- The format of a `Float`. -/
def BinaryFormat.binary64 : BinaryFormat := ⟨52, -1074, 0x7FF0000000000000⟩

/-- The format of a `Float32`. -/
def BinaryFormat.binary32 : BinaryFormat := ⟨23, -149, 0x7F800000⟩

/-- The quotient `num / 2 ^ shift`, rounded to nearest, ties to even. -/
def shiftRound (num shift : Nat) : Nat :=
  let den := Nat.pow 2 shift
  let q := num / den
  let r := num % den
  if 2 * r < den then q
  else if den < 2 * r then q + 1
  else if q % 2 = 0 then q else q + 1

namespace BinaryFormat

/-- The bit pattern of the value of the format nearest to `m * 2 ^ q`. A
carry out of the significand lands in the exponent, so one sum encodes
subnormal and normal values alike. -/
def roundBits (F : BinaryFormat) (m : Nat) (q : Int) : Nat :=
  if m = 0 then 0
  else
    let unit := max (m.log2 + q - F.mantissaBits) F.minExponent
    let n := if unit ≤ q then m * Nat.pow 2 (q - unit).toNat else shiftRound m (unit - q).toNat
    min ((unit - F.minExponent).toNat * F.mantissaSpan + n) F.infinityBits

/-- The magnitude bits of a finite value as `m * 2 ^ q`. -/
def decode (F : BinaryFormat) (bits : Nat) : Nat × Int :=
  let e := bits / F.mantissaSpan
  let f := bits % F.mantissaSpan
  if e = 0 then (f, F.minExponent) else (F.mantissaSpan + f, F.minExponent + (e - 1))

end BinaryFormat

/-- Which of two values is larger, on sign-and-magnitude keys; nothing is
comparable with a key beyond the infinities. -/
def compareKeys (infinity : Nat) (x y : Int) : Option Ordering :=
  if infinity < x.natAbs ∨ infinity < y.natAbs then none
  else some (compare x y)

namespace Binary64

/-- Bits without the sign. -/
def magnitude (x : Float) : Nat := x.toBits.toNat % Word.half64

/-- Whether the sign bit is set. -/
def negative (x : Float) : Bool := Word.half64 ≤ x.toBits.toNat

/-- The signed magnitude: keys order as the values do, and both zeros have
the key `0`. -/
def key (x : Float) : Int := if negative x then -(magnitude x) else magnitude x

def isFinite (x : Float) : Bool := magnitude x < BinaryFormat.binary64.infinityBits

def isNaN (x : Float) : Bool := BinaryFormat.binary64.infinityBits < magnitude x

/-- The order of two values, absent when one is not a number. -/
def compare? (x y : Float) : Option Ordering :=
  compareKeys BinaryFormat.binary64.infinityBits (key x) (key y)

/-- Numeric equality: the zeros are equal, and what is no number equals
nothing. -/
def eq (x y : Float) : Bool := compare? x y = some .eq

/-- The value of a sign and a bit pattern of a magnitude. -/
def ofParts (negative : Bool) (bits : Nat) : Float :=
  Float.ofBits (UInt64.ofNat (if negative then bits + Word.half64 else bits))

/-- The binary64 nearest to an integer. -/
def ofInt (n : Int) : Float :=
  ofParts (n < 0) (BinaryFormat.binary64.roundBits n.natAbs 0)

end Binary64

namespace Binary32

/-- Bits without the sign. -/
def magnitude (x : Float32) : Nat := x.toBits.toNat % Word.half32

/-- Whether the sign bit is set. -/
def negative (x : Float32) : Bool := Word.half32 ≤ x.toBits.toNat

/-- The signed magnitude; see `Binary64.key`. -/
def key (x : Float32) : Int := if negative x then -(magnitude x) else magnitude x

def isFinite (x : Float32) : Bool := magnitude x < BinaryFormat.binary32.infinityBits

def isNaN (x : Float32) : Bool := BinaryFormat.binary32.infinityBits < magnitude x

/-- The order of two values, absent when one is not a number. -/
def compare? (x y : Float32) : Option Ordering :=
  compareKeys BinaryFormat.binary32.infinityBits (key x) (key y)

/-- Numeric equality. -/
def eq (x y : Float32) : Bool := compare? x y = some .eq

/-- The value of a sign and a bit pattern of a magnitude. -/
def ofParts (negative : Bool) (bits : Nat) : Float32 :=
  Float32.ofBits (UInt32.ofNat (if negative then bits + Word.half32 else bits))

/-- Whether two values have the same bits. -/
def identical (x y : Float32) : Bool := x.toBits = y.toBits

/-- The binary64 of the same value. -/
def widen (x : Float32) : Float :=
  let F := BinaryFormat.binary32
  let G := BinaryFormat.binary64
  if isNaN x then Binary64.ofParts (negative x) (G.infinityBits + 0x8000000000000)
  else if magnitude x = F.infinityBits then Binary64.ofParts (negative x) G.infinityBits
  else
    let (m, q) := F.decode (magnitude x)
    Binary64.ofParts (negative x) (G.roundBits m q)

/-- The binary32 nearest to a binary64. -/
def narrow (x : Float) : Float32 :=
  let F := BinaryFormat.binary64
  let G := BinaryFormat.binary32
  if Binary64.isNaN x then ofParts (Binary64.negative x) (G.infinityBits + 0x400000)
  else if Binary64.magnitude x = F.infinityBits then ofParts (Binary64.negative x) G.infinityBits
  else
    let (m, q) := F.decode (Binary64.magnitude x)
    ofParts (Binary64.negative x) (G.roundBits m q)

end Binary32

end VectorBridge
