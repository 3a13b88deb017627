import VectorBridge.Error
import VectorBridge.Item
import VectorBridge.Uuid.Basic
/-!
# Item ids in a backend

Some backends key their rows by UUID or by integer. An id that has the
backend's form is used as it is; any other is turned into a key, and the
item keeps its id under a reserved metadata key.
-/

namespace VectorBridge

/-- How a backend keys its rows. -/
inductive IdKind where
  | nativeString
  | uuid
  | integer
  deriving DecidableEq, Repr, Inhabited

namespace IdKind

def name : IdKind → String
  | nativeString => "native_string"
  | uuid => "uuid"
  | integer => "integer"

def toJson (k : IdKind) : Json := .str k.name

def ofJson? (j : Json) : Option IdKind :=
  (Json.choice? j).bind fun s => [nativeString, uuid, integer].find? fun k => k.name = s

end IdKind

/-- The key of a row. -/
inductive BackendId where
  | string (s : String)
  | uuid (u : Uuid)
  | integer (n : Nat)
  deriving DecidableEq, Repr, Inhabited

/-- The key's text. -/
def BackendId.text : BackendId → String
  | string s => s
  | uuid u => u.text
  | integer n => toString n

namespace BackendId

def toJson : BackendId → Json
  | string s => .obj [("string", .str s)]
  | uuid u => .obj [("uuid", .str u.text)]
  | integer n => .obj [("integer", .nat n)]

def ofJson? (j : Json) : Option BackendId := do
  let (name, content) ← Json.variant? j
  if name = "string" then content.str?.map string
  else if name = "uuid" then (content.str?.bind Uuid.parse?).map uuid
  else if name = "integer" then content.u64?.map integer
  else none

end BackendId

/-- A key made from an id; `keepsId` when the id cannot be read off the key,
so that the item has to keep it beside. -/
structure MappedId where
  backend : BackendId
  keepsId : Bool
  deriving DecidableEq, Repr, Inhabited

/-- The number at the end of a text, when there is one and it fits in 64
bits. -/
def trailingNumber? (s : String) : Option Nat :=
  let digits := (s.toList.reverse.takeWhile Text.isDigit).reverse
  if digits.isEmpty then none
  else
    let n := Text.natOfDigits digits
    if n < Word.span64 then some n else none

/-- The UUID of an id, and whether the id cannot be read off it. -/
def uuidKey (id : String) : Uuid × Bool :=
  match Uuid.parse? id with
  | some u => if u.text = id then (u, false) else (Uuid.derive id, true)
  | none => (Uuid.derive id, true)

namespace IdKind

/-- The key of an id; absent for an integer key when the id does not end in
a number. -/
def map? (k : IdKind) (id : String) : Option MappedId :=
  match k with
  | nativeString => some ⟨.string id, false⟩
  | uuid => some ⟨.uuid (uuidKey id).1, (uuidKey id).2⟩
  | integer => (trailingNumber? id).map fun n => ⟨.integer n, toString n != id⟩

/-- The key of an id outside a batch. -/
def toBackendId (k : IdKind) (id : String) : Result BackendId :=
  match k.map? id with
  | some m => .ok m.backend
  | none => .error <| .invalidInput
    s!"id '{id}' has no numeric suffix and needs a write batch position"

/-- The id read off a key and its metadata, and the metadata without the
reserved entry. -/
def recover (key : BackendId) (metadata : Metadata) : String × Metadata :=
  let rest := Keyed.erase givenIdKey metadata
  match Keyed.get? givenIdKey metadata with
  | some (.str given) => (given, rest)
  | _ => (key.text, rest)

/-- Keys for the items from position `position` on; `seen` holds the keys
given so far with the ids they were given to. -/
def mapFrom (k : IdKind) (position : Nat) (seen : List (BackendId × String)) :
    List Item → Result (List MappedId)
  | [] => .ok []
  | item :: rest =>
    let m := (k.map? item.id).getD ⟨.integer position, true⟩
    match seen.lookup m.backend with
    | some previous => .error <| .invalidInput
      s!"ids '{previous}' and '{item.id}' map to the same backend id {m.backend.text}"
    | none =>
      match mapFrom k (position + 1) ((m.backend, item.id) :: seen) rest with
      | .ok ms => .ok (m :: ms)
      | .error e => .error e

/-- Keys for a batch of items; an id without a key of its own takes its
position. Two ids with one key are refused. -/
def mapBatch (k : IdKind) (items : List Item) : Result (List MappedId) := k.mapFrom 0 [] items

end IdKind

end VectorBridge
