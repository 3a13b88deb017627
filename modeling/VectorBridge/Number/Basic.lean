import VectorBridge.Number.Binary
/-!
# Numbers of two classes

A number in a JSON text is an integer within the 64-bit ranges or a
binary64, and stays what it was written as. Two notions of equality are
used side by side: `same` keeps the classes apart, `looseEq` compares the
values as binary64.
-/

namespace VectorBridge

/-- A JSON number: an integer of the signed or unsigned 64-bit range, or a
binary64. -/
inductive Number where
  | int (n : Int)
  | flt (x : Float)
  deriving Inhabited

namespace Number

/-- The number as a binary64; large integers are rounded. -/
def toFloat : Number → Float
  | int n => Binary64.ofInt n
  | flt x => x

/-- The order of two numbers as binary64 values. -/
def compare? (a b : Number) : Option Ordering := Binary64.compare? a.toFloat b.toFloat

/-- Equality that keeps the classes apart: `5` is not `5.0`. -/
def same : Number → Number → Bool
  | int m, int n => m == n
  | flt x, flt y => Binary64.eq x y
  | _, _ => false

/-- Equality of the values as binary64, across the classes. -/
def looseEq (a b : Number) : Bool := Binary64.eq a.toFloat b.toFloat

end Number

end VectorBridge
