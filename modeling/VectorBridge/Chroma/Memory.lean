import VectorBridge.Chroma.Server
/-!
# A Chroma server in memory

Collections by name, each with its records in the order they were first
written. Where-maps are evaluated by the rules of the query language, apart
from how filters are compiled to them.
-/

namespace VectorBridge

namespace Chroma

/-! ## Where-maps -/

/-- Whether a list has an element equal to a value. -/
def hasElement (field operand : Json) : Bool :=
  match field with
  | .arr elems => elems.any fun e => e.looseEq operand
  | _ => false

/-- Whether a value is among the candidates. -/
def isCandidate (field operand : Json) : Bool :=
  match operand with
  | .arr candidates => candidates.any fun c => field.looseEq c
  | _ => false

/-- Whether one comparison holds of a field, which may be missing. An
unknown comparison never holds. -/
def comparisonHolds (op : String) (operand : Json) (field : Option Json) : Bool :=
  match field with
  | none => op = "$ne" || op = "$nin" || op = "$not_contains"
  | some field =>
    let order := field.compare? operand
    if op = "$contains" then hasElement field operand
    else if op = "$not_contains" then !hasElement field operand
    else if op = "$eq" then field.looseEq operand
    else if op = "$ne" then !field.looseEq operand
    else if op = "$gt" then order == some .gt
    else if op = "$gte" then order == some .gt || order == some .eq
    else if op = "$lt" then order == some .lt
    else if op = "$lte" then order == some .lt || order == some .eq
    else if op = "$in" then isCandidate field operand
    else if op = "$nin" then !isCandidate field operand
    else false

/-- Whether a field satisfies its condition: every comparison of a map, else
equality with a plain value. -/
def fieldHolds (condition : Json) (field : Option Json) : Bool :=
  match condition with
  | .obj comparisons => comparisons.all fun e => comparisonHolds e.1 e.2 field
  | value => field.any fun v => v.looseEq value

mutual

/-- Whether metadata satisfies a where-map: every entry of it. -/
def satisfies (metadata : Metadata) : Json → Bool
  | .obj entries => entriesHold metadata entries
  | _ => false

/-- Whether metadata satisfies every entry: all parts under `$and`, some
part under `$or`, else a field's condition. -/
def entriesHold (metadata : Metadata) : List (String × Json) → Bool
  | [] => true
  | (key, .arr parts) :: rest =>
    (if key = "$and" then allHold metadata parts
     else if key = "$or" then someHolds metadata parts
     else fieldHolds (.arr parts) (Keyed.get? key metadata)) && entriesHold metadata rest
  | (key, condition) :: rest =>
    (if key = "$and" ∨ key = "$or" then false
     else fieldHolds condition (Keyed.get? key metadata)) && entriesHold metadata rest

/-- Whether metadata satisfies every where-map of a list. -/
def allHold (metadata : Metadata) : List Json → Bool
  | [] => true
  | w :: rest => satisfies metadata w && allHold metadata rest

/-- Whether metadata satisfies some where-map of a list. -/
def someHolds (metadata : Metadata) : List Json → Bool
  | [] => false
  | w :: rest => satisfies metadata w || someHolds metadata rest

end

/-- Whether metadata satisfies a where-map, if there is one. -/
def passes (filter : Option Json) (metadata : Metadata) : Bool :=
  filter.all fun w => satisfies metadata w

/-! ## The server -/

/-- A collection and its records, oldest first. -/
structure Stored where
  info : Info
  records : List Item
  deriving Inhabited

/-- The state of a server. -/
structure Memory where
  collections : Keyed String Stored
  /-- How many collections were ever created. -/
  created : Nat
  deriving Inhabited

/-- Replaces the record of an item's id, or adds one at the end. -/
def place (item : Item) : List Item → List Item
  | [] => [item]
  | r :: rest => if r.id = item.id then item :: rest else r :: place item rest

namespace Stored

/-- Writes an item; the first vector ever written sets the width. -/
def write (s : Stored) (item : Item) : Stored :=
  { info := { s.info with dimension := s.info.dimension <|> item.embedding.map List.length }
    records := place item s.records }

/-- The metric vectors are compared by. -/
def metric (s : Stored) : Metric :=
  match (s.info.metadata.bind (Keyed.get? spaceKey)).bind Json.str? with
  | some "cosine" => .cosine
  | some "ip" => .dot
  | _ => .euclidean

/-- The records of a selection. -/
def select (s : Stored) (q : Selection) : List Item :=
  let found := s.records.filter fun item =>
    (q.ids.all fun ids => ids.contains item.id) && passes q.filter item.metadata
  let rest := found.drop (q.offset.getD 0)
  match q.limit with
  | some n => rest.take n
  | none => rest

/-- The nearest records to a vector. -/
def nearest (s : Stored) (v : Embedding) (limit : Nat) (filter : Option Json) : List Hit :=
  let scored := (s.records.filter fun item => passes filter item.metadata).filterMap fun item =>
    item.embedding.map fun e => (⟨item, s.metric.distance v e⟩ : Hit)
  Ranking.distance.top (·.score) limit scored

end Stored

namespace Memory

/-- A server without collections. -/
def empty : Memory := ⟨[], 0⟩

/-- The collection of a name. -/
def find? (m : Memory) (name : String) : Except TransportError Stored :=
  match Keyed.get? name m.collections with
  | some s => .ok s
  | none => .error (.missing s!"collection '{name}'")

/-- The collection of an id. -/
def withId? (m : Memory) (id : String) : Except TransportError Stored :=
  match (Keyed.values m.collections).find? fun s => s.info.id = id with
  | some s => .ok s
  | none => .error (.missing s!"collection id '{id}'")

/-- Reads the collection of an id. -/
def reading {α : Type} (id : String) (f : Stored → α) : Call Memory α :=
  Call.read fun m => (m.withId? id).map f

/-- Changes the collection of an id. -/
def changing (id : String) (f : Stored → Stored) : Call Memory Unit := fun m =>
  match m.withId? id with
  | .ok s =>
    (.ok (), { m with collections := Keyed.insert s.info.name (f s) m.collections })
  | .error e => (.error e, m)

/-- Creates a collection, or finds the one of that name. -/
def create (name : String) (metadata : Metadata) : Call Memory Info := fun m =>
  match Keyed.get? name m.collections with
  | some s => (.ok s.info, m)
  | none =>
    let info : Info := ⟨s!"col-{m.created + 1}", name, some metadata, none⟩
    (.ok info, ⟨Keyed.insert name ⟨info, []⟩ m.collections, m.created + 1⟩)

/-- Drops the collection of a name. -/
def drop (name : String) : Call Memory Unit := fun m =>
  match m.find? name with
  | .ok _ => (.ok (), { m with collections := Keyed.erase name m.collections })
  | .error e => (.error e, m)

instance : Server Memory where
  heartbeat := pure ()
  collections := Call.read fun m => .ok ((Keyed.values m.collections).map (·.info))
  create := create
  find := fun name => Call.read fun m => (m.find? name).map (·.info)
  drop := drop
  upsert := fun id items => changing id fun s => items.foldl Stored.write s
  get := fun id q => reading id fun s => s.select q
  query := fun id vectors limit filter => reading id fun s =>
    vectors.map fun v => s.nearest v limit filter
  delete := fun id ids => changing id fun s =>
    { s with records := s.records.filter fun item => !ids.contains item.id }
  deleteWhere := fun id filter => changing id fun s =>
    { s with records := s.records.filter fun item => !satisfies item.metadata filter }
  count := fun id => reading id fun s => s.records.length
  rounds := fun m => Keyed.total (fun s => s.records.length) m.collections + 2

end Memory

end Chroma

end VectorBridge
