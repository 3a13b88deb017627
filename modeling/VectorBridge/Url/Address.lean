import VectorBridge.Json.Reader
import VectorBridge.Text.Search
/-!
# Numeric addresses

IPv4 addresses, whose parts may be written in three bases and whose last
part may stand for several, and IPv6 addresses, whose longest run of zeros
is left out. Addresses are read leniently and written in one way.
-/

namespace VectorBridge

namespace Url

/-! ## IPv4 -/

/-- The value of a digit in a base of at most sixteen. -/
def digit? (base : Nat) (c : Char) : Option Nat :=
  (Json.hexDigit? c).bind fun d => if d < base then some d else none

/-- The number of some digits. -/
def number? (base : Nat) (cs : List Char) : Option Nat :=
  (cs.mapM (digit? base)).map fun ds => ds.foldl (fun n d => n * base + d) 0

/-- A part of an IPv4 address: hexadecimal after `0x`, octal after `0`, else
decimal. -/
def ipv4Number? : List Char → Option Nat
  | [] => none
  | '0' :: 'x' :: rest => number? 16 rest
  | '0' :: 'X' :: rest => number? 16 rest
  | '0' :: c :: rest => number? 8 (c :: rest)
  | cs => number? 10 cs

/-- The parts of a domain, without the empty one behind a final dot. -/
def domainParts (cs : List Char) : List (List Char) :=
  let parts := Text.splitAt '.' cs
  if parts.getLast? = some [] && 1 < parts.length then parts.dropLast else parts

/-- Whether a domain ends in a number. -/
def endsInNumber (cs : List Char) : Bool :=
  match (domainParts cs).getLast? with
  | none | some [] => false
  | some part => part.all Text.isDigit || (ipv4Number? part).isSome

/-- The IPv4 address of a domain that ends in a number. -/
def ipv4? (cs : List Char) : Option Nat :=
  let parts := domainParts cs
  if 4 < parts.length then none
  else do
    let numbers ← parts.mapM ipv4Number?
    let last ← numbers.getLast?
    let firsts := numbers.dropLast
    if firsts.any (255 < ·) || Nat.pow 256 (5 - numbers.length) ≤ last then none
    else
      let placed := (List.range firsts.length).zip firsts
      some (placed.foldl (fun n (i, part) => n + part * Nat.pow 256 (3 - i)) last)

/-- An IPv4 address in decimal parts. -/
def ipv4Text (n : Nat) : String :=
  Text.join "." ([n / 0x1000000, n / 0x10000 % 256, n / 0x100 % 256, n % 256].map toString)

/-! ## IPv6 -/

/-- The two pieces of an IPv4 address in plain decimal parts. -/
def embeddedIpv4? (cs : List Char) : Option (List Nat) := do
  let parts := Text.splitAt '.' cs
  let plain (part : List Char) : Option Nat :=
    if part.isEmpty || !part.all Text.isDigit then none
    else if 1 < part.length && part.head? = some '0' then none
    else
      let n := Text.natOfDigits part
      if n ≤ 255 then some n else none
  match ← parts.mapM plain with
  | [a, b, c, d] => some [a * 256 + b, c * 256 + d]
  | _ => none

/-- The pieces between colons; the last may be an IPv4 address. -/
def ipv6Pieces? : List (List Char) → Option (List Nat)
  | [] => some []
  | [part] =>
    if part.contains '.' then embeddedIpv4? part
    else if part.isEmpty || 4 < part.length then none
    else (number? 16 part).map fun n => [n]
  | part :: rest =>
    if part.isEmpty || 4 < part.length then none
    else do
      let n ← number? 16 part
      some (n :: (← ipv6Pieces? rest))

/-- The text before and after the first pair of colons. -/
def splitPair? : List Char → Option (List Char × List Char)
  | ':' :: ':' :: rest => some ([], rest)
  | c :: rest => (splitPair? rest).map fun (a, b) => (c :: a, b)
  | [] => none

/-- The pieces of a text that may be empty. -/
def side? (cs : List Char) : Option (List Nat) :=
  if cs.isEmpty then some [] else ipv6Pieces? (Text.splitAt ':' cs)

/-- The IPv6 address of a text; a pair of colons stands for zeros. -/
def ipv6? (cs : List Char) : Option (List Nat) :=
  match splitPair? cs with
  | none => do
    let pieces ← ipv6Pieces? (Text.splitAt ':' cs)
    if pieces.length = 8 then some pieces else none
  | some (before, after) => do
    let left ← if before.contains '.' then none else side? before
    let right ← side? after
    let missing := 8 - (left.length + right.length)
    if 8 ≤ left.length + right.length then none
    else some (left ++ List.replicate missing 0 ++ right)

/-- The number of zeros a list begins with. -/
def zeroRun (pieces : List Nat) : Nat := (pieces.takeWhile (· == 0)).length

/-- The start and length of the first longest run of zeros, of two at
least. -/
def longestZeros (pieces : List Nat) : Option (Nat × Nat) :=
  let runs := (List.range pieces.length).map fun i => (i, zeroRun (pieces.drop i))
  let best := runs.foldl (fun best r => if best.2 < r.2 then r else best) (0, 0)
  if 2 ≤ best.2 then some best else none

/-- An IPv6 address with its longest run of zeros left out. -/
def ipv6Text (pieces : List Nat) : String :=
  let written (l : List Nat) : String :=
    Text.join ":" (l.map fun n => String.ofList (Nat.toDigits 16 n))
  match longestZeros pieces with
  | none => written pieces
  | some (start, length) =>
    written (pieces.take start) ++ "::" ++ written (pieces.drop (start + length))

end Url

end VectorBridge
