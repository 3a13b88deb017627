import VectorBridge.Identifier
import VectorBridge.Qdrant.Filter
import VectorBridge.Session
/-!
# A Qdrant server in memory

Collections by name, each with its points in the order of their ids. A
point has a payload, filters are evaluated on it by the rules of the query
language, and a list in a payload counts element by element.
-/

namespace VectorBridge

namespace Qdrant

/-- How a collection compares vectors. -/
inductive Distance where
  | cosine
  | euclid
  | dot
  deriving DecidableEq, Repr, Inhabited

namespace Distance

/-- The distance of a metric. -/
def ofMetric : Metric → Distance
  | .euclidean => euclid
  | .dot => dot
  | .cosine | .unknown => cosine

/-- The metric of a distance, unknown when there is none. -/
def metric : Option Distance → Metric
  | some cosine => .cosine
  | some euclid => .euclidean
  | some dot => .dot
  | none => .unknown

/-- Whether small or large scores are better. -/
def ranking : Distance → Ranking
  | euclid => .distance
  | cosine | dot => .similarity

/-- The score of a vector for a query. -/
def score (d : Distance) (query v : Embedding) : Float32 :=
  match d with
  | euclid => Metric.euclidean.distance query v
  | dot => Metric.dot.similarity query v
  | cosine => Metric.cosine.similarity query v

end Distance

/-- A stored point. -/
structure Point where
  id : Uuid
  payload : Metadata
  vector : Option Embedding
  deriving Inhabited

/-! ## Filters on payloads -/

namespace Match

/-- Whether the test holds of one value. -/
def holds : Match → Json → Bool
  | keyword s, v => v.str? = some s
  | boolean b, v => v.bool? = some b
  | text s, v => v.str?.any fun t => Text.contains t s
  | keywords l, v => v.str?.any fun t => l.contains t

end Match

namespace Range

/-- Whether one value is a number within the bounds. -/
def holds (r : Range) (v : Json) : Bool :=
  match v.num? with
  | none => false
  | some n =>
    let x := n.toFloat
    let order (bound : Float) : Option Ordering := Binary64.compare? x bound
    (r.gt.all fun b => order b == some .gt) &&
      (r.gte.all fun b => order b == some .gt || order b == some .eq) &&
      (r.lt.all fun b => order b == some .lt) &&
      (r.lte.all fun b => order b == some .lt || order b == some .eq)

end Range

/-- The values of a payload field: a list's elements, or the field itself. -/
def fieldValues : Json → List Json
  | .arr elems => elems
  | v => [v]

/-- Whether a payload field passes a test and lies within bounds; a missing
field does not. -/
def fieldHolds (test : Option Match) (range : Option Range) (field : Option Json) : Bool :=
  match field with
  | none => false
  | some v =>
    (test.all fun t => (fieldValues v).any t.holds) &&
      (range.all fun r => (fieldValues v).any r.holds)

mutual

/-- Whether a payload satisfies a condition. -/
def Condition.holds (payload : Metadata) : Condition → Bool
  | .field key test range => fieldHolds test range (Keyed.get? key payload)
  | .nested must mustNot should =>
    Condition.allHold payload must && !Condition.someHolds payload mustNot &&
      (should.isEmpty || Condition.someHolds payload should)

/-- Whether a payload satisfies every condition of a list. -/
def Condition.allHold (payload : Metadata) : List Condition → Bool
  | [] => true
  | c :: rest => Condition.holds payload c && Condition.allHold payload rest

/-- Whether a payload satisfies some condition of a list. -/
def Condition.someHolds (payload : Metadata) : List Condition → Bool
  | [] => false
  | c :: rest => Condition.holds payload c || Condition.someHolds payload rest

end

namespace PointFilter

/-- Whether a payload satisfies a filter. -/
def holds (f : PointFilter) (payload : Metadata) : Bool :=
  (Condition.nested f.must f.mustNot f.should).holds payload

end PointFilter

/-- Whether a payload satisfies a filter, if there is one. -/
def passes (filter : Option PointFilter) (payload : Metadata) : Bool :=
  filter.all fun f => f.holds payload

/-! ## The server -/

/-- A collection and its points. -/
structure Stored where
  width : Nat
  distance : Distance
  points : Keyed Uuid Point
  deriving Inhabited

/-- The state of a server. -/
structure Memory where
  collections : Keyed String Stored
  deriving Inhabited

/-- Points read, and where to read on. -/
structure Scroll where
  points : List Point
  next : Option BackendId
  deriving Inhabited

/-- Whether reading from a place on includes an id. Numbers come before
every UUID. -/
def startsBefore (start : Option BackendId) (id : Uuid) : Bool :=
  match start with
  | some (.uuid u) => !decide (id < u)
  | some (.string _) | some (.integer _) | none => true

namespace Stored

/-- The points that pass a filter, in order. -/
def passing (s : Stored) (filter : Option PointFilter) : List Point :=
  (Keyed.values s.points).filter fun p => passes filter p.payload

/-- At most `limit` points that pass a filter, from a place on. -/
def scroll (s : Stored) (filter : Option PointFilter) (start : Option BackendId)
    (limit : Nat) : Scroll :=
  let found := (s.passing filter).filter fun p => startsBefore start p.id
  { points := found.take limit
    next := (found.drop limit).head?.map fun p => .uuid p.id }

/-- The nearest points to a vector. -/
def nearest (s : Stored) (v : Embedding) (limit : Nat) (filter : Option PointFilter) :
    List (Point × Float32) :=
  let scored := (s.passing filter).filterMap fun p =>
    p.vector.map fun e => (p, s.distance.score v e)
  s.distance.ranking.top (·.2) limit scored

/-- The first vector of a width other than the collection's. -/
def misfit? (s : Stored) (points : List Point) : Option Embedding :=
  (points.filterMap (·.vector)).find? fun v => v.length ≠ s.width

end Stored

namespace Memory

/-- A server without collections. -/
def empty : Memory := ⟨[]⟩

/-- The collection of a name. -/
def find? (m : Memory) (name : String) : Except TransportError Stored :=
  match Keyed.get? name m.collections with
  | some s => .ok s
  | none => .error (.missing s!"collection '{name}'")

/-- Reads a collection. -/
def reading {α : Type} (name : String) (f : Stored → α) : Call Memory α :=
  Call.read fun m => (m.find? name).map f

/-- Changes a collection, or refuses to. -/
def changing (name : String) (f : Stored → Except TransportError Stored) : Call Memory Unit :=
  fun m =>
    match m.find? name with
    | .error e => (.error e, m)
    | .ok s =>
      match f s with
      | .error e => (.error e, m)
      | .ok s => (.ok (), ⟨Keyed.insert name s m.collections⟩)

/-- The names of the collections. -/
def names : Call Memory (List String) := Call.read fun m => .ok (Keyed.keys m.collections)

/-- Creates a collection. -/
def create (name : String) (width : Nat) (distance : Distance) : Call Memory Unit := fun m =>
  if Keyed.hasKey name m.collections then
    (.error (.status 409 s!"Collection `{name}` already exists!"), m)
  else (.ok (), ⟨Keyed.insert name ⟨width, distance, []⟩ m.collections⟩)

/-- Drops a collection. -/
def drop (name : String) : Call Memory Unit := fun m =>
  match m.find? name with
  | .error e => (.error e, m)
  | .ok _ => (.ok (), ⟨Keyed.erase name m.collections⟩)

/-- Inserts or replaces points, all or none. -/
def upsert (name : String) (points : List Point) : Call Memory Unit := changing name fun s =>
  match s.misfit? points with
  | some v => .error <| .status 400
    s!"Wrong input: Vector dimension error: expected dim: {s.width}, got {v.length}"
  | none => .ok { s with points := points.foldl (fun m p => Keyed.insert p.id p m) s.points }

/-- The points of some ids, in the order of the ids. -/
def retrieve (name : String) (ids : List Uuid) : Call Memory (List Point) :=
  reading name fun s => ids.filterMap fun id => Keyed.get? id s.points

/-- Removes the points of some ids. -/
def erase (name : String) (ids : List Uuid) : Call Memory Unit := changing name fun s =>
  .ok { s with points := ids.foldl (fun m id => Keyed.erase id m) s.points }

/-- Removes the points that satisfy a filter. -/
def eraseWhere (name : String) (filter : PointFilter) : Call Memory Unit :=
  changing name fun s =>
    .ok { s with points := s.points.filter fun e => !filter.holds e.2.payload }

/-- Number of points. -/
def count (name : String) : Call Memory Nat := reading name fun s => s.points.length

end Memory

end Qdrant

end VectorBridge
