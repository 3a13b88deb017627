import VectorBridge.Json.Reader
import VectorBridge.Uuid.Digest
/-!
# UUIDs

128-bit identifiers with their text forms, and the identifiers derived
from names.
-/

namespace VectorBridge

/-- A universally unique identifier. -/
structure Uuid where
  bits : BitVec 128
  deriving DecidableEq, Repr, Inhabited

namespace Uuid

/-- Identifiers are ordered as numbers, which is the order of their texts. -/
instance : LT Uuid := ⟨fun a b => a.bits.toNat < b.bits.toNat⟩

instance : DecidableLT Uuid := fun a b => inferInstanceAs (Decidable (a.bits.toNat < b.bits.toNat))

/-- The identifier of all zeros. -/
def nil : Uuid := ⟨0⟩

/-- The number written by hexadecimal digits. -/
def ofHex (digits : List Nat) : Uuid := ⟨BitVec.ofNat 128 (digits.foldl (fun n d => n * 16 + d) 0)⟩

/-- The lowest `k` hexadecimal digits of a number, lower case. -/
def hexDigits : Nat → Nat → List Char
  | 0, _ => []
  | k + 1, n => hexDigits k (n / 16) ++ [Nat.digitChar (n % 16)]

/-- The hyphenated text, in lower case. -/
def text (u : Uuid) : String :=
  let ds := hexDigits 32 u.bits.toNat
  String.ofList <| ds.take 8 ++ ['-'] ++ (ds.drop 8).take 4 ++ ['-'] ++ (ds.drop 12).take 4 ++
    ['-'] ++ (ds.drop 16).take 4 ++ ['-'] ++ ds.drop 20

/-- Thirty-two digits. -/
def ofSimple? (cs : List Char) : Option Uuid :=
  if cs.length = 32 then (cs.mapM Json.hexDigit?).map ofHex else none

/-- Groups of 8, 4, 4, 4 and 12 digits between hyphens. -/
def ofHyphenated? (cs : List Char) : Option Uuid :=
  let at? (i : Nat) : Bool := cs[i]? = some '-'
  if cs.length = 36 ∧ at? 8 ∧ at? 13 ∧ at? 18 ∧ at? 23 then
    ofSimple? (cs.take 8 ++ (cs.drop 9).take 4 ++ (cs.drop 14).take 4 ++ (cs.drop 19).take 4 ++
      cs.drop 24)
  else none

/-- The identifier of a text: plain digits, hyphenated, hyphenated in braces
or as a URN; digits of any case. -/
def parse? (s : String) : Option Uuid :=
  let cs := s.toList
  let urn := "urn:uuid:".toList
  if cs.length = 32 then ofSimple? cs
  else if cs.length = 38 ∧ cs.head? = some '\x7b' ∧ cs.getLast? = some '\x7d' then
    ofHyphenated? ((cs.drop 1).take 36)
  else if urn.isPrefixOf cs then ofHyphenated? (cs.drop urn.length)
  else ofHyphenated? cs

/-- The bytes, most significant first. -/
def bytes (u : Uuid) : List UInt8 := Digest.bigEndian 16 u.bits.toNat

/-- The identifier with the given bytes, most significant first. -/
def ofBytes (bytes : List UInt8) : Uuid :=
  ⟨BitVec.ofNat 128 (bytes.foldl (fun n b => n * 256 + b.toNat) 0)⟩

/-- The identifier of a name within a namespace: the leading bytes of the
digest of both, with version 5 and the variant set. -/
def ofName (space : Uuid) (name : List UInt8) : Uuid :=
  let digest := (Digest.sha1 (space.bytes ++ name)).take 16
  ofBytes ((digest.modify 6 fun b => (b &&& 0x0F) ||| 0x50).modify 8 fun b =>
    (b &&& 0x3F) ||| 0x80)

/-- The namespace of domain names. -/
def domainNames : Uuid := ⟨BitVec.ofNat 128 0x6ba7b8109dad11d180b400c04fd430c8⟩

/-- The bytes of a text in UTF-8. -/
def utf8 (s : String) : List UInt8 := s.toUTF8.toList

/-- The identifier derived from a text. -/
def derive (s : String) : Uuid := ofName domainNames (utf8 s)

end Uuid

end VectorBridge
