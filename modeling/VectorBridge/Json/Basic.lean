import VectorBridge.Keyed
import VectorBridge.Number.Basic
/-!
# JSON values

Metadata, filter operands and everything a server says are JSON. A number
keeps its class: an integer within the 64-bit ranges, or a binary64. An
object is a list of fields, in ascending key order once normalised.
-/

namespace VectorBridge

/-- A JSON value. -/
inductive Json where
  | null
  | bool (b : Bool)
  | num (n : Number)
  | str (s : String)
  | arr (elems : List Json)
  | obj (fields : List (String × Json))
  deriving Inhabited

namespace Json

/-- The fields of an object. -/
abbrev Fields : Type := Keyed String Json

mutual

/-- Equality of values; numbers of different class differ. -/
def same : Json → Json → Bool
  | null, null => true
  | bool a, bool b => a == b
  | num a, num b => a.same b
  | str a, str b => a == b
  | arr a, arr b => sameList a b
  | obj a, obj b => sameFields a b
  | _, _ => false

/-- Element by element. -/
def sameList : List Json → List Json → Bool
  | [], [] => true
  | a :: as, b :: bs => same a b && sameList as bs
  | _, _ => false

/-- Field by field, in order. -/
def sameFields : List (String × Json) → List (String × Json) → Bool
  | [], [] => true
  | (k, a) :: as, (l, b) :: bs => k == l && same a b && sameFields as bs
  | _, _ => false

end

/-- Equality that looks through the class of numbers at the top: `5` equals
`5.0`, while lists and objects compare by `same`. -/
def looseEq : Json → Json → Bool
  | num a, num b => a.looseEq b
  | a, b => same a b

/-- The order of two numbers or of two strings. Strings order by code
point. -/
def compare? : Json → Json → Option Ordering
  | num a, num b => a.compare? b
  | str a, str b => some (compareOfLessAndEq a b)
  | _, _ => none

mutual

/-- Sorts the fields of every object; of two fields with one name the later
wins. -/
def normalize : Json → Json
  | arr elems => arr (normalizeList elems)
  | obj fields => obj (Keyed.ofList (normalizeFields fields))
  | other => other

/-- Normalises every element. -/
def normalizeList : List Json → List Json
  | [] => []
  | j :: rest => normalize j :: normalizeList rest

/-- Normalises every field's value. -/
def normalizeFields : List (String × Json) → List (String × Json)
  | [] => []
  | (k, j) :: rest => (k, normalize j) :: normalizeFields rest

end

/-- An integer value. -/
def int (n : Int) : Json := num (.int n)

/-- A natural number as a value. -/
def nat (n : Nat) : Json := num (.int n)

/-- A binary64 as a value; what is not finite has no JSON form but null. -/
def ofFloat (x : Float) : Json := if Binary64.isFinite x then num (.flt x) else null

/-- A binary32 as a value, widened. -/
def ofFloat32 (x : Float32) : Json := ofFloat (Binary32.widen x)

/-- The object with the given fields, in key order. -/
def ofFields (l : List (String × Json)) : Json := obj (Keyed.ofList l)

/-- A string, or null. -/
def ofString? : Option String → Json
  | some s => str s
  | none => null

def isNull : Json → Bool
  | null => true
  | _ => false

def str? : Json → Option String
  | str s => some s
  | _ => none

def bool? : Json → Option Bool
  | bool b => some b
  | _ => none

def arr? : Json → Option (List Json)
  | arr l => some l
  | _ => none

def obj? : Json → Option Fields
  | obj l => some l
  | _ => none

def num? : Json → Option Number
  | num n => some n
  | _ => none

/-- An integer of the unsigned 64-bit range. -/
def u64? : Json → Option Nat
  | num (.int n) => if 0 ≤ n ∧ n < Word.span64 then some n.toNat else none
  | _ => none

/-- An integer of the signed 64-bit range. -/
def i64? : Json → Option Int
  | num (.int n) => if -Word.half64 ≤ n ∧ n < Word.half64 then some n else none
  | _ => none

/-- The value of a field, when the value is an object that has it. -/
def field? (name : String) : Json → Option Json
  | obj fields => Keyed.get? name fields
  | _ => none

/-- The value of a field, null when there is none. -/
def field (name : String) (j : Json) : Json := (j.field? name).getD null

end Json

end VectorBridge
