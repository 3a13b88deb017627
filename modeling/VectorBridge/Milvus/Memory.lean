import VectorBridge.Milvus.Server
/-!
# A Milvus server in memory

Collections by name, each with its rows in the order they were first
written. Two rows are one when their keys are written alike. Expressions
are evaluated on whole rows, schema fields and metadata alike.
-/

namespace VectorBridge

namespace Milvus

/-! ## Expressions -/

/-- The elements of a list; another value has none. -/
def elements : Json → List Json
  | .arr elems => elems
  | _ => []

/-- Whether a row satisfies a comparison; a missing field never does. -/
def Term.holds (t : Term) (row : Row) : Bool :=
  match Keyed.get? t.field.name row with
  | none => false
  | some field =>
    let operand := t.value.toJson
    let order := field.compare? operand
    let among (v : Json) : Bool := (elements operand).any fun c => v.looseEq c
    match t.op with
    | .eq => field.looseEq operand
    | .matchesOne =>
      field.looseEq operand || (elements field).any fun e => e.looseEq operand
    | .gt => order == some .gt
    | .gte => order == some .gt || order == some .eq
    | .lt => order == some .lt
    | .lte => order == some .lt || order == some .eq
    | .isIn => among field
    | .matchesAny => among field || (elements field).any among

/-- Whether a row satisfies every comparison. -/
def Expr.holds (e : Expr) (row : Row) : Bool := e.terms.all fun t => t.holds row

/-- Whether a row satisfies an expression, if there is one. -/
def passes (filter : Option Expr) (row : Row) : Bool := filter.all fun e => e.holds row

/-! ## The server -/

/-- A collection and its rows, oldest first. -/
structure Stored where
  schema : Schema
  rows : List Row
  deriving Inhabited

/-- The state of a server. -/
structure Memory where
  collections : Keyed String Stored
  deriving Inhabited

/-- Whether two keys are written alike; strings and integers are when they
are equal. A row may lack its key. -/
def sameKey : Option Json → Option Json → Bool
  | some (.str a), some (.str b) => a == b
  | some (.num (.int m)), some (.num (.int n)) => m == n
  | some a, some b => a.text == b.text
  | none, none => true
  | _, _ => false

/-- Replaces the row of the same key, or adds one at the end. -/
def place (primaryField : String) (row : Row) : List Row → List Row
  | [] => [row]
  | r :: rest =>
    if sameKey (Keyed.get? primaryField r) (Keyed.get? primaryField row) then row :: rest
    else r :: place primaryField row rest

namespace Stored

/-- The first vector of a width other than the collection's. -/
def misfit? (s : Stored) (rows : List Row) : Option (Nat × Nat) :=
  s.schema.dimension.bind fun expected =>
    ((rows.filterMap fun r => vectorOf? r s.schema.vectorField).find? fun v =>
      v.length ≠ expected).map fun v => (v.length, expected)

/-- Inserts or replaces rows, all or none. -/
def upsert (s : Stored) (rows : List Row) : Except TransportError Stored :=
  match s.misfit? rows with
  | some (actual, expected) => .error <| .api 1100 <|
    s!"the dim ({actual}) of field data(embedding) is not equal to schema dim ({expected})"
  | none => .ok { s with rows := rows.foldl (fun l r => place s.schema.primaryField r l) s.rows }

/-- The rows that satisfy an expression. -/
def passing (s : Stored) (filter : Option Expr) : List Row := s.rows.filter (passes filter)

/-- The score of a vector for a query. -/
def score (s : Stored) (query v : Embedding) : Float32 :=
  match ranking s.schema.metric with
  | .distance => s.schema.metric.distance query v
  | .similarity => s.schema.metric.similarity query v

/-- The nearest rows to a vector. -/
def nearest (s : Stored) (field : String) (v : Embedding) (limit : Nat) (filter : Option Expr) :
    List (Row × Float32) :=
  let scored := (s.passing filter).filterMap fun r =>
    (vectorOf? r field).map fun e => (r, s.score v e)
  (ranking s.schema.metric).top (·.2) limit scored

end Stored

namespace Memory

/-- A server without collections. -/
def empty : Memory := ⟨[]⟩

/-- The server with one more collection, of a given schema. -/
def withCollection (m : Memory) (name : String) (schema : Schema) : Memory :=
  ⟨Keyed.insert name ⟨schema, []⟩ m.collections⟩

/-- The collection of a name. -/
def find? (m : Memory) (name : String) : Except TransportError Stored :=
  match Keyed.get? name m.collections with
  | some s => .ok s
  | none => .error (.missing s!"collection '{name}'")

/-- Reads a collection. -/
def reading {α : Type} (name : String) (f : Stored → α) : Call Memory α :=
  Call.read fun m => (m.find? name).map f

/-- Changes a collection, or refuses to. -/
def changing (name : String) (f : Stored → Except TransportError Stored) : Call Memory Unit :=
  fun m =>
    match m.find? name with
    | .error e => (.error e, m)
    | .ok s =>
      match f s with
      | .error e => (.error e, m)
      | .ok s => (.ok (), ⟨Keyed.insert name s m.collections⟩)

/-- Creates a collection of the plain schema. -/
def create (name : String) (dimension : Nat) (metric : Metric) : Call Memory Unit := fun m =>
  if Keyed.hasKey name m.collections then
    (.error (.api 65535 s!"collection {name} already exists"), m)
  else
    (.ok (), m.withCollection name { Schema.plain with dimension := some dimension, metric })

/-- Reads rows, as far as the window goes. -/
def query (name : String) (filter : Option Expr) (offset limit : Nat) : Call Memory (List Row) :=
  if offset + limit > window then
    throw <| .api 65535
      "invalid max query result window, (offset+limit) should be in range [1, 16384]"
  else reading name fun s => ((s.passing filter).drop offset).take limit

instance : Server Memory where
  health := pure ()
  names := Call.read fun m => .ok (Keyed.keys m.collections)
  create := create
  describe := fun name => reading name (·.schema)
  drop := fun name m => (.ok (), ⟨Keyed.erase name m.collections⟩)
  upsert := fun name rows => changing name fun s => s.upsert rows
  query := query
  delete := fun name filter => changing name fun s =>
    .ok { s with rows := s.rows.filter fun r => !filter.holds r }
  count := fun name => reading name fun s => s.rows.length
  search := fun name field v limit filter => reading name fun s => s.nearest field v limit filter
  rounds := fun m => Keyed.total (fun s => s.rows.length) m.collections + 2

end Memory

end Milvus

end VectorBridge
