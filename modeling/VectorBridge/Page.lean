import VectorBridge.Error
import VectorBridge.Json.Decode
import VectorBridge.Text.Search
/-!
# Pages

Listings are read page by page. A token says where the next page starts:
at an offset, or at a cursor the backend gave out. Listings that were
fetched whole are kept under a key made of the collection's name and the
filter, and are cut into pages from there.
-/

namespace VectorBridge

/-- Where a page starts. -/
inductive PageToken where
  | offset (n : Nat)
  | cursor (c : String)
  deriving DecidableEq, Repr, Inhabited

namespace PageToken

def toJson : PageToken → Json
  | offset n => .obj [("offset", .nat n)]
  | cursor c => .obj [("cursor", .str c)]

def ofJson? (j : Json) : Option PageToken := do
  let (name, content) ← Json.variant? j
  if name = "offset" then content.u64?.map offset
  else if name = "cursor" then content.str?.map cursor
  else none

end PageToken

/-- A request for one page. -/
structure PageRequest where
  token : Option PageToken
  size : Nat
  deriving DecidableEq, Repr, Inhabited

namespace PageRequest

/-- The page size used where nothing asks for another. -/
def defaultSize : Nat := 100

/-- The first page. -/
def first (size : Nat) : PageRequest := ⟨none, size⟩

/-- The page at a token. -/
def next (token : PageToken) (size : Nat) : PageRequest := ⟨some token, size⟩

/-- The offset to read at; a cursor is refused. -/
def offset (r : PageRequest) : Result Nat :=
  match r.token with
  | none => .ok 0
  | some (.offset n) => .ok n
  | some (.cursor _) => .error (.invalidInput "cursor token passed to an offset-paginated read")

/-- The cursor to read at, none for the first page; an offset is refused. -/
def cursor (r : PageRequest) : Result (Option String) :=
  match r.token with
  | none => .ok none
  | some (.cursor c) => .ok (some c)
  | some (.offset _) => .error (.invalidInput "offset token passed to a cursor-paginated read")

/-- Refuses an empty page. -/
def validate (r : PageRequest) : Result Unit :=
  if r.size = 0 then .error (.invalidInput "page size must be positive") else .ok ()

def toJson (r : PageRequest) : Json :=
  .ofFields [("token", (r.token.map PageToken.toJson).getD .null), ("size", .nat r.size)]

def ofJson? (j : Json) : Option PageRequest := do
  let r ← Json.Record.ofJson? ["token", "size"] j
  let token ← r.optional "token" PageToken.ofJson?
  let size ← r.required "size" Json.u64?
  pure { token, size }

end PageRequest

/-- A page of entries, and the token of the page after it. -/
structure Page (α : Type) where
  items : List α
  next : Option PageToken
  deriving Inhabited

namespace Page

variable {α : Type}

/-- The page of entries read at the request's offset; a full page promises
another one. -/
def ofOffset (items : List α) (request : PageRequest) : Result (Page α) :=
  match request.validate with
  | .error e => .error e
  | .ok () =>
    match request.offset with
    | .error e => .error e
    | .ok offset => .ok
      { items
        next := if request.size ≤ items.length then some (.offset (offset + items.length))
          else none }

/-- The page of entries before a cursor. -/
def ofCursor (items : List α) (cursor : Option String) : Page α :=
  { items, next := cursor.map .cursor }

/-- At most `size` entries of a whole listing, from an offset on. -/
def slice (all : List α) (offset size : Nat) : Page α :=
  let stop := min (offset + size) all.length
  { items := (all.drop offset).take size
    next := if stop < all.length then some (.offset stop) else none }

/-- Whether no page follows. -/
def isLast (p : Page α) : Bool := p.next.isNone

def toJson (entry : α → Json) (p : Page α) : Json :=
  .ofFields [("items", .arr (p.items.map entry)),
    ("next", (p.next.map PageToken.toJson).getD .null)]

def ofJson? (entry : Json → Option α) (j : Json) : Option (Page α) := do
  let r ← Json.Record.ofJson? ["items", "next"] j
  let items ← r.required "items" (Json.listOf? entry)
  let next ← r.optional "next" PageToken.ofJson?
  pure { items, next }

end Page

/-- Listings fetched whole, by key. -/
abbrev Listings (α : Type) : Type := Keyed String (List α)

namespace Listings

variable {α : Type}

/-- Stands between a collection's name and the filter's text. -/
def separator : String := "\x1f"

/-- How the keys of a collection begin. -/
def keyStart (collection : String) : String := collection ++ separator

/-- The key of a collection and a filter's text. -/
def key (collection fingerprint : String) : String := keyStart collection ++ fingerprint

/-- A page of the listing under a key, when it is held. -/
def slice? (l : Listings α) (key : String) (request : PageRequest) : Result (Option (Page α)) :=
  match request.validate with
  | .error e => .error e
  | .ok () =>
    match request.offset with
    | .error e => .error e
    | .ok offset => .ok ((Keyed.get? key l).map fun all => Page.slice all offset request.size)

/-- Forgets the listings whose keys begin with a text. -/
def invalidate (l : Listings α) (start : String) : Listings α :=
  l.filter fun e => !Text.startsWith e.1 start

end Listings

end VectorBridge
