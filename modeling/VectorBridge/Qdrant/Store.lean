import VectorBridge.Family
import VectorBridge.Qdrant.Server
/-!
# Items on a Qdrant server

An item is a point: its document stands in the payload beside its metadata,
and its id there too unless it is a UUID. The server reads listings by
cursor and evaluates whole filters.
-/

namespace VectorBridge

namespace Qdrant

/-- The payload field of an item's document. -/
def documentKey : String := "document"

namespace Point

/-- The point of an item. -/
def ofItem (item : Item) : Point :=
  let (id, keepsId) := uuidKey item.id
  let payload := match item.document with
    | some d => Keyed.insert documentKey (.str d) item.metadata
    | none => item.metadata
  { id
    payload := if keepsId then Keyed.insert givenIdKey (.str item.id) payload
      else payload
    vector := item.embedding }

/-- The item of a point. -/
def toItem (p : Point) : Item :=
  let (id, metadata) :=
    IdKind.recover (.uuid p.id) (Keyed.erase documentKey p.payload)
  { id
    document := (Keyed.get? documentKey p.payload).bind Json.str?
    metadata
    embedding := p.vector }

end Point

/-- The place a cursor names: a UUID or a number. -/
def cursor? (cursor : String) : Result BackendId :=
  match Uuid.parse? cursor, Text.natUpTo? (Word.span64 - 1) cursor with
  | some u, _ => .ok (.uuid u)
  | none, some n => .ok (.integer n)
  | none, none => .error (.invalidInput s!"'{cursor}' is not a Qdrant page cursor")

/-- Where a page starts. -/
def start? (request : PageRequest) : Result (Option BackendId) :=
  match request.cursor with
  | .error e => .error e
  | .ok none => .ok none
  | .ok (some c) => (cursor? c).map some

/-- Writes items as points, once each has a key of its own. -/
def write (name : String) (items : List Item) : Action Memory Unit := do
  let _ ← Action.ofResult (IdKind.uuid.mapBatch items)
  (Memory.upsert name (items.map Point.ofItem)).toAction

/-- The family of Qdrant servers. -/
def family : Family Memory String Demand PointFilter where
  kind := .qdrant
  compiler := filterCompiler
  ping := pure ()
  names := Memory.names
  create := fun _ name width metric => Memory.create name width (.ofMetric metric)
  drop := Memory.drop
  count := Memory.count
  attach := fun name => pure name
  inspect := fun name => Memory.reading name fun s =>
    (name, ⟨s.distance.ranking, Distance.metric (some s.distance), some s.width⟩)
  nameOf := fun name => name
  metadataOf := fun _ => none
  readsMetadata := false
  declaredWidth := fun name => Memory.reading name fun s => some s.width
  probedWidth := fun name => Memory.reading name fun s =>
    (s.scroll none none 1).points.findSome? fun p => p.vector.map List.length
  trustsDeclared := true
  learnsWidth := false
  checkItem := fun _ => .ok ()
  vectorless := some fun id => s!"Qdrant stores a vector for every point, item '{id}' has none"
  write := write
  fetch := fun name ids => do
    pure ((← Memory.retrieve name (ids.map fun id => (uuidKey id).1)).map Point.toItem)
  sample := fun name n => Memory.reading name fun s =>
    (s.scroll none none n).points.map Point.toItem
  fetchAll := fun name filter => (Memory.reading name fun s =>
    (s.passing filter).map Point.toItem).toAction
  readPage := fun name filter request => do
    let start ← Action.ofResult (start? request)
    let scroll ← (Memory.reading name fun s => s.scroll filter start request.size).toAction
    pure (Page.ofCursor (scroll.points.map Point.toItem) (scroll.next.map BackendId.text))
  eraseIds := fun name ids => Memory.erase name (ids.map fun id => (uuidKey id).1)
  eraseWhere := Memory.eraseWhere
  size := Memory.count
  nearest := fun name _ limit filter vectors => Memory.reading name fun s =>
    vectors.map fun v => (s.nearest v limit filter).map fun (p, score) => ⟨p.toItem, score⟩
  rounds := fun m => Keyed.total (fun s => s.points.length) m.collections + 2

end Qdrant

end VectorBridge
