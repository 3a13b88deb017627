import VectorBridge.Json.Basic
/-!
# Decoding values

Typed values out of JSON. A record is an object with one field per name,
or a list of its fields in declaration order; unknown fields of an object
are ignored, and a repeated known one or an element too many is refused.
An absent optional field is fine in an object but not in a list, where
only trailing fields with a default may be left out.
-/

namespace VectorBridge

namespace Json

/-- Elements decoded one by one; one failure fails the list. -/
def listOf? {α : Type} (decode : Json → Option α) : Json → Option (List α)
  | arr elems => elems.mapM decode
  | _ => none

/-- Null, or a decoded value. -/
def optionOf? {α : Type} (decode : Json → Option α) : Json → Option (Option α)
  | null => some none
  | j => (decode j).map some

/-- A map of any fields, in key order. -/
def fields? : Json → Option Fields
  | obj l => match normalize (obj l) with
    | obj l => some l
    | _ => none
  | _ => none

/-- An object whose values are decoded, in key order. -/
def mapOf? {α : Type} (decode : Json → Option α) : Json → Option (Keyed String α)
  | obj l => (l.mapM fun e => (decode e.2).map fun a => (e.1, a)).map Keyed.ofList
  | _ => none

/-- A binary32: a binary64 is narrowed and an integer rounded. -/
def float32? : Json → Option Float32
  | num (.int n) =>
    some (Binary32.ofParts (n < 0) (BinaryFormat.binary32.roundBits n.natAbs 0))
  | num (.flt x) => some (Binary32.narrow x)
  | _ => none

/-- A binary32 that may be written as a name when it is not finite. -/
def namedFloat32? : Json → Option Float32
  | str "NaN" => some (Binary32.ofParts false 0x7FC00000)
  | str "inf" => some (Binary32.ofParts false 0x7F800000)
  | str "-inf" => some (Binary32.ofParts true 0x7F800000)
  | j => float32? j

/-- A binary32, by name when it is not finite. -/
def ofNamedFloat32 (x : Float32) : Json :=
  if Binary32.isNaN x then str "NaN"
  else if Binary32.isFinite x then ofFloat32 x
  else if Binary32.negative x then str "-inf"
  else str "inf"

/-- The name of a choice without content: the bare name, or an object of
that one field holding null. -/
def choice? : Json → Option String
  | str s => some s
  | obj [(s, null)] => some s
  | _ => none

/-- The name and content of a choice with content. -/
def variant? : Json → Option (String × Json)
  | obj [(s, j)] => some (s, j)
  | _ => none

/-- The named fields of a record; `positional` when it was written as a
list. -/
structure Record where
  positional : Bool
  values : Fields
  deriving Inhabited

namespace Record

/-- The record with the given field names. -/
def ofJson? (names : List String) : Json → Option Record
  | obj l =>
    if names.all fun n => (l.filter fun e => e.1 = n).length ≤ 1 then
      some { positional := false, values := l }
    else none
  | arr elems =>
    if elems.length ≤ names.length then
      some { positional := true, values := names.zip elems }
    else none
  | _ => none

/-- A field that has to be there. -/
def required {α : Type} (r : Record) (name : String) (decode : Json → Option α) : Option α :=
  (Keyed.get? name r.values).bind decode

/-- A field that may be null, or absent from an object. -/
def optional {α : Type} (r : Record) (name : String) (decode : Json → Option α) :
    Option (Option α) :=
  match Keyed.get? name r.values with
  | some j => optionOf? decode j
  | none => if r.positional then none else some none

/-- A field with a default. -/
def withDefault {α : Type} (r : Record) (name : String) (default : α)
    (decode : Json → Option α) : Option α :=
  match Keyed.get? name r.values with
  | some j => decode j
  | none => some default

end Record

end Json

end VectorBridge
