import VectorBridge.Chroma.Filter
import VectorBridge.Family
/-!
# Chroma servers

What is asked of a Chroma server, and the family of adapters to it. A
collection is looked up by name and then addressed by the id the server
gave it. Its distance function and the model of its vectors stand in its
metadata.
-/

namespace VectorBridge

namespace Chroma

/-- A collection as the server describes it. -/
structure Info where
  id : String
  name : String
  metadata : Option Metadata
  dimension : Option Nat
  deriving Inhabited

/-- Which records are read. -/
structure Selection where
  ids : Option (List String)
  filter : Option Json
  limit : Option Nat
  offset : Option Nat
  deriving Inhabited

/-- Every record. -/
def Selection.all : Selection := ⟨none, none, none, none⟩

/-- The questions a Chroma server answers. -/
class Server (τ : Type) where
  heartbeat : Call τ Unit
  collections : Call τ (List Info)
  /-- Creates a collection, or finds the one of that name. -/
  create : String → Metadata → Call τ Info
  find : String → Call τ Info
  drop : String → Call τ Unit
  upsert : String → List Item → Call τ Unit
  get : String → Selection → Call τ (List Item)
  query : String → List Embedding → Nat → Option Json → Call τ (List (List Hit))
  delete : String → List String → Call τ Unit
  deleteWhere : String → Json → Call τ Unit
  count : String → Call τ Nat
  /-- More pages than a listing can have. -/
  rounds : τ → Nat

/-- The metadata key of a collection's distance function. -/
def spaceKey : String := "hnsw:space"

/-- The distance function of a metric. -/
def spaceName : Metric → String
  | .euclidean => "l2"
  | .dot => "ip"
  | .cosine | .unknown => "cosine"

/-- The metric of a collection's metadata; without a distance function it is
the Euclidean one. -/
def metricOf (metadata : Option Metadata) : Metric :=
  match metadata.bind (Keyed.get? spaceKey) with
  | some (.str space) => Metric.parseLossy space
  | some _ => .unknown
  | none => .euclidean

/-- What is recorded about a new collection. -/
def newMetadata (c : Context) (name : String) (metric : Metric) : Metadata :=
  let base : Metadata := [(spaceKey, .str (spaceName metric))]
  match c.modelHint name none none with
  | some model => Keyed.insert embeddingModelKey (.str model) base
  | none => base

/-- The family of Chroma servers. -/
def family {τ : Type} [Server τ] : Family τ Info Json Json where
  kind := .chroma
  compiler := filterCompiler
  ping := Server.heartbeat
  names := do pure ((← Server.collections).map (·.name))
  create := fun c name _ metric => do
    let _ ← Server.create name (newMetadata c name metric)
    pure ()
  drop := Server.drop
  count := fun name => do Server.count (← Server.find name).id
  attach := Server.find
  inspect := fun name => do
    let info ← Server.find name
    pure (info, ⟨.distance, metricOf info.metadata, info.dimension⟩)
  nameOf := Info.name
  metadataOf := Info.metadata
  readsMetadata := true
  declaredWidth := fun info => pure info.dimension
  probedWidth := fun info => do
    let items ← Server.get info.id { Selection.all with limit := some 1 }
    pure (items.findSome? fun item => item.embedding.map List.length)
  trustsDeclared := false
  learnsWidth := true
  checkItem := fun _ => .ok ()
  vectorless := some fun id =>
    s!"Chroma needs an embedding for item '{id}' and no embedding provider is configured"
  write := fun info items => (Server.upsert info.id items).toAction
  fetch := fun info ids => Server.get info.id { Selection.all with ids := some ids }
  sample := fun info n => Server.get info.id { Selection.all with limit := some n }
  fetchAll := fun info filter => (Server.get info.id { Selection.all with filter }).toAction
  readPage := fun info filter request => do
    let offset ← Action.ofResult request.offset
    let items ← (Server.get info.id
      { Selection.all with filter, limit := some request.size, offset := some offset }).toAction
    Action.ofResult (Page.ofOffset items request)
  eraseIds := fun info ids => Server.delete info.id ids
  eraseWhere := fun info filter => Server.deleteWhere info.id filter
  size := fun info => Server.count info.id
  nearest := fun info _ limit filter vectors => Server.query info.id vectors limit filter
  rounds := Server.rounds

end Chroma

end VectorBridge
