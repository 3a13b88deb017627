import VectorBridge.Text.Search
import VectorBridge.Uuid.Basic
/-!
# Percent encoding

Characters that may not stand for themselves in a part of a URL are written
as the bytes of their UTF-8 form, each as a percent sign and two
hexadecimal digits. Which characters those are depends on the part.
-/

namespace VectorBridge

namespace Url

/-- A control character or one beyond ASCII. -/
def isControl (c : Char) : Bool := c.toNat < 0x20 || 0x7E < c.toNat

/-- What a fragment encodes. -/
def inFragment (c : Char) : Bool := isControl c || [' ', '"', '<', '>', '\x60'].contains c

/-- What a path encodes. -/
def inPath (c : Char) : Bool := inFragment c || ['#', '?', '\x7b', '\x7d'].contains c

/-- What a user name or password encodes. -/
def inUserinfo (c : Char) : Bool :=
  inPath c || ['/', ':', ';', '=', '@', '[', '\\', ']', '^', '|'].contains c

/-- What a query encodes; in a special scheme the apostrophe too. -/
def inQuery (special : Bool) (c : Char) : Bool :=
  isControl c || [' ', '"', '#', '<', '>'].contains c || (special && c.toNat == 0x27)

/-- A hexadecimal digit, upper case. -/
def hexDigit (n : Nat) : Char :=
  if n < 10 then Char.ofNat (48 + n) else Char.ofNat (55 + n)

/-- A byte as a percent sign and two digits. -/
def encodeByte (b : UInt8) : List Char := ['%', hexDigit (b.toNat / 16), hexDigit (b.toNat % 16)]

/-- A character, encoded where it has to be. -/
def encodeChar (encodes : Char → Bool) (c : Char) : List Char :=
  if encodes c then (Uuid.utf8 (String.ofList [c])).flatMap encodeByte else [c]

/-- A text with the characters encoded that have to be. -/
def encode (encodes : Char → Bool) (cs : List Char) : String :=
  String.ofList (cs.flatMap (encodeChar encodes))

/-- The bytes of a text, encoded ones decoded. -/
def decodeBytes : List UInt8 → List UInt8
  | 0x25 :: a :: b :: rest =>
    match Json.hexDigit? (Char.ofNat a.toNat), Json.hexDigit? (Char.ofNat b.toNat) with
    | some x, some y => UInt8.ofNat (x * 16 + y) :: decodeBytes rest
    | _, _ => 0x25 :: decodeBytes (a :: b :: rest)
  | c :: rest => c :: decodeBytes rest
  | [] => []
termination_by l => l.length

/-- A text with encoded bytes decoded, when they make up UTF-8. -/
def decode? (s : String) : Option String :=
  String.fromUTF8? ⟨(decodeBytes (Uuid.utf8 s)).toArray⟩

end Url

end VectorBridge
