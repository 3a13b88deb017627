/-!
# SHA-1

The 160-bit digest of a list of bytes, from which name-based UUIDs are cut.
-/

namespace VectorBridge

namespace Digest

/-- Rotation to the left. -/
def rotate (x : UInt32) (k : UInt32) : UInt32 := (x <<< k) ||| (x >>> (32 - k))

/-- The big-endian bytes of a number. -/
def bigEndian : Nat → Nat → List UInt8
  | 0, _ => []
  | k + 1, n => bigEndian k (n / 256) ++ [UInt8.ofNat (n % 256)]

/-- The message with its padding: a one bit, zeros up to 56 bytes modulo 64,
and the length in bits. -/
def pad (message : List UInt8) : List UInt8 :=
  let n := message.length
  message ++ [0x80] ++ List.replicate ((119 - n % 64) % 64) 0 ++ bigEndian 8 (8 * n)

/-- Big-endian words. -/
def words : List UInt8 → List UInt32
  | a :: b :: c :: d :: rest =>
    ((a.toUInt32 <<< 24) ||| (b.toUInt32 <<< 16) ||| (c.toUInt32 <<< 8) ||| d.toUInt32) ::
      words rest
  | _ => []

/-- Extends sixteen words to eighty; `window` holds the last sixteen,
newest first. -/
def schedule : Nat → List UInt32 → List UInt32
  | 0, _ => []
  | k + 1, window =>
    let get (i : Nat) : UInt32 := window.getD i 0
    let w := rotate (get 2 ^^^ get 7 ^^^ get 13 ^^^ get 15) 1
    w :: schedule k ((w :: window).take 16)

/-- The chaining value. -/
structure State where
  a : UInt32
  b : UInt32
  c : UInt32
  d : UInt32
  e : UInt32

/-- The mixing function and constant of a round. -/
def mix (t : Nat) (s : State) : UInt32 × UInt32 :=
  if t < 20 then ((s.b &&& s.c) ||| ((s.b ^^^ 0xFFFFFFFF) &&& s.d), 0x5A827999)
  else if t < 40 then (s.b ^^^ s.c ^^^ s.d, 0x6ED9EBA1)
  else if t < 60 then ((s.b &&& s.c) ||| (s.b &&& s.d) ||| (s.c &&& s.d), 0x8F1BBCDC)
  else (s.b ^^^ s.c ^^^ s.d, 0xCA62C1D6)

/-- One round with word `w`. -/
def round (t : Nat) (w : UInt32) (s : State) : State :=
  let (f, k) := mix t s
  { a := rotate s.a 5 + f + s.e + k + w, b := s.a, c := rotate s.b 30, d := s.c, e := s.d }

/-- The rounds from number `t` on. -/
def rounds : Nat → List UInt32 → State → State
  | _, [], s => s
  | t, w :: ws, s => rounds (t + 1) ws (round t w s)

/-- Folds a block of sixteen words into the chaining value. -/
def block (s : State) (ws : List UInt32) : State :=
  let r := rounds 0 (ws ++ schedule 64 ws.reverse) s
  { a := s.a + r.a, b := s.b + r.b, c := s.c + r.c, d := s.d + r.d, e := s.e + r.e }

/-- Folds `count` blocks. -/
def blocks : Nat → List UInt32 → State → State
  | 0, _, s => s
  | k + 1, ws, s => blocks k (ws.drop 16) (block s (ws.take 16))

/-- The digest as twenty bytes. -/
def sha1 (message : List UInt8) : List UInt8 :=
  let ws := words (pad message)
  let s := blocks (ws.length / 16) ws ⟨0x67452301, 0xEFCDAB89, 0x98BADCFE, 0x10325476, 0xC3D2E1F0⟩
  [s.a, s.b, s.c, s.d, s.e].flatMap fun w => bigEndian 4 w.toNat

end Digest

end VectorBridge
