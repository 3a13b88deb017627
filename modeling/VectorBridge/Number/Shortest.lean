import VectorBridge.Number.Binary
/-!
# Shortest decimals

The fewest decimal digits that read back to a binary64. A finite value
`m * 2 ^ q` is written exactly as an integer `d` in units of a power of
ten; grids of one, two, three, … leading digits of `d` are tried in turn,
and the first grid with a point among the reals that round to the value
wins. Of two such points the nearer is taken, and of two equally near
ones the even one. The last grid is `d` itself, so the search never fails.
-/

namespace VectorBridge

/-- The decimal `digits * 10 ^ exponent`. -/
structure Decimal where
  digits : Nat
  exponent : Int
  deriving Repr, DecidableEq

namespace Decimal

/-- The reals that round to a value, in quarters of the decimal unit in
which the value is `centre`; the ends belong to it when `closed`. -/
structure RoundingInterval where
  centre : Nat
  low : Nat
  high : Nat
  closed : Bool
  deriving Repr, DecidableEq

/-- Whether `n` units lie in the interval. -/
def RoundingInterval.holds (I : RoundingInterval) (n : Nat) : Bool :=
  if I.closed then I.low ≤ 4 * n && 4 * n ≤ I.high else I.low < 4 * n && 4 * n < I.high

/-- The shortest point of the interval, when at most `drop` trailing digits
may be dropped. -/
def RoundingInterval.shortest (I : RoundingInterval) : Nat → Nat
  | 0 => I.centre
  | drop + 1 =>
    let grid := Nat.pow 10 (drop + 1)
    let below := I.centre / grid
    let lower := I.holds (below * grid)
    let upper := I.holds ((below + 1) * grid)
    if lower && upper then
      let twice := 2 * I.centre
      let middle := (2 * below + 1) * grid
      if twice < middle then below * grid
      else if middle < twice then (below + 1) * grid
      else if below % 2 = 0 then below * grid else (below + 1) * grid
    else if lower then below * grid
    else if upper then (below + 1) * grid
    else I.shortest drop

/-- Number of decimal digits. -/
def digitCount (n : Nat) : Nat := (Nat.toDigits 10 n).length

/-- Moves trailing zeros of the digits into the exponent; at most `fuel` of
them. -/
def stripZeros : Nat → Decimal → Decimal
  | 0, d => d
  | fuel + 1, d =>
    if d.digits ≠ 0 ∧ d.digits % 10 = 0 then
      stripZeros fuel { digits := d.digits / 10, exponent := d.exponent + 1 }
    else d

/-- The shortest decimal of a finite non-zero binary64 magnitude. -/
def ofBits (bits : Nat) : Decimal :=
  let F := BinaryFormat.binary64
  let (m, q) := F.decode bits
  let unit := if q < 0 then Nat.pow 5 q.natAbs else Nat.pow 2 q.natAbs
  let centre := m * unit
  -- below a power of two the neighbour is half as far away
  let narrow := bits % F.mantissaSpan = 0 ∧ 1 < bits / F.mantissaSpan
  let I : RoundingInterval :=
    { centre := centre
      low := 4 * centre - (if narrow then unit else 2 * unit)
      high := 4 * centre + 2 * unit
      closed := m % 2 = 0 }
  let digits := I.shortest (digitCount centre)
  stripZeros (digitCount digits) { digits := digits, exponent := min q 0 }

/-- Layout of a decimal: positional with at least one fractional digit when
the exponent of the leading digit lies in `-5 … 15`, else scientific with a
sign on positive exponents. -/
def text (d : Decimal) : String :=
  let ds := Nat.toDigits 10 d.digits
  let lead := (ds.length : Int) + d.exponent - 1
  if -5 ≤ lead ∧ lead ≤ 15 then
    if lead < 0 then
      "0." ++ String.ofList (List.replicate (-lead - 1).toNat '0' ++ ds)
    else
      let whole := lead.toNat + 1
      let padded := ds ++ List.replicate (whole - ds.length) '0'
      let fraction := padded.drop whole
      String.ofList (padded.take whole) ++ "." ++
        (if fraction.isEmpty then "0" else String.ofList fraction)
  else
    let mantissa := match ds with
      | [] => "0"
      | [c] => String.ofList [c]
      | c :: rest => String.ofList (c :: '.' :: rest)
    mantissa ++ "e" ++ (if 0 ≤ lead then "+" else "-") ++ toString lead.natAbs

end Decimal

namespace Binary64

/-- The text of a finite value: the shortest decimal that reads back to it,
with the sign also on a negative zero. -/
def text (x : Float) : String :=
  (if negative x then "-" else "") ++
    (if magnitude x = 0 then "0.0" else (Decimal.ofBits (magnitude x)).text)

end Binary64

end VectorBridge
