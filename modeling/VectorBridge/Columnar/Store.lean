import VectorBridge.Adapter
import VectorBridge.Columnar.Table
import VectorBridge.Filter.Compiler
/-!
# Items in columnar tables

The adapter to a store of tables. It reads a whole table for every answer
and writes a whole table for every change, and evaluates filters and
distances itself.
-/

namespace VectorBridge

namespace Columnar

open Session

/-- The compiler that leaves everything to the client. -/
def filterCompiler : FilterCompiler Unit Unit where
  capabilities := .allResidual
  lower := fun c => .error <| .unsupportedOperator
    s!"the columnar store evaluates '{c.operator.name}' in memory only"
  combine := fun _ => ()

variable {τ : Type} [Store τ]

/-- Resolves the width of a table. -/
def resolve (name : String) : Action (Session τ) Dimension :=
  resolveWidth name (do pure (← Store.read name).width)
    (do pure (← Store.read name).someWidth?)

/-- Writes a new table, unless there is one of that name. -/
def createCollection (name : String) (dimension : Nat) (metric : Metric) :
    Action (Session τ) Unit := do
  ensureConnected
  Action.ofResult (checkCreate dimension metric)
  if ← call (Store.contains name) then
    throw (.invalidInput s!"table '{name}' already exists")
  else do
    call (Store.write name (.new dimension metric))
    recordWidth name dimension

/-- A table's description, the sentinel left out. -/
def describe (name : String) : Action (Session τ) Collection := do
  ensureConnected
  let table ← call (Store.read name)
  let dimension ← resolve name
  pure { name
         vectorDimension := dimension.toOption
         metric := table.metric
         itemCount := table.visible.length
         metadataFields := Batch.observedFields (table.items.take Batch.sampleSize) }

/-- The width of a batch, which has to be known: rows without a vector are
filled with zeros. -/
def requireWidth (name : String) (width : Option Nat) : Result Nat :=
  match width with
  | some w => .ok w
  | none => .error (.dimensionUnknown name)

/-- Refuses a batch that would write the sentinel. -/
def checkSentinel (items : List Item) : Result Unit :=
  if items.any fun item => item.id = sentinelId then
    .error (.invalidInput s!"'{sentinelId}' is reserved by the columnar store")
  else .ok ()

/-- Inserts or replaces items. The batch needs a width even when no item has a
vector, because every row does. -/
def addItems (name : String) (items : List Item) : Action (Session τ) Unit := do
  ensureConnected
  if items.isEmpty then pure ()
  else do
    Action.ofResult (Batch.checkIds items)
    Action.ofResult (checkSentinel items)
    let table ← call (Store.read name)
    let items ← embedding fun c => Batch.embedMissing c name none items
    let dimension ← resolve name
    let width ← Action.ofResult (Batch.checkDimensions dimension items)
    let width ← Action.ofResult (requireWidth name width)
    if dimension.toOption.isNone then recordWidth name width
    let sized := { table with width := table.width <|> some width }
    call (Store.write name (sized.upsert (items.map (Row.ofItem width))))
    dropListings name

/-- The items of some ids, in the order of the ids. The table has to be there
even for none. -/
def getItems (name : String) (ids : List String) : Action (Session τ) (List Item) := do
  ensureConnected
  let table ← call (Store.read name)
  pure (ids.filterMap fun id => table.items.find? fun item => item.id = id)

/-- One page of the items that pass a filter. Every listing is fetched whole. -/
def listItems (name : String) (request : PageRequest) (filter : Option Filter) :
    Action (Session τ) (Page Item) := do
  ensureConnected
  Action.ofResult request.validate
  let compiled ← Action.ofResult (filterCompiler.compile? filter)
  materialized (listingKey name filter) request do
    pure (compiled.postFilter (← call (Store.read name)).items)

/-- Applies updates to the stored items and writes the results back. -/
def updateItems (name : String) (updates : List ItemUpdate) : Action (Session τ) Unit := do
  ensureConnected
  if updates.isEmpty then pure ()
  else do
    let stored ← getItems name (updates.map (·.id))
    let merged ← Action.ofResult (Batch.mergeUpdates (← get).context stored updates)
    addItems name merged

/-- The ids that a removal by ids and filter is about. -/
def targets (t : Table) (ids : List String) (filter : Option Filter) : List String :=
  match filter with
  | none => ids
  | some f =>
    let among := t.items.filter fun item => ids.isEmpty || ids.contains item.id
    (among.filter f.accepts).map (·.id)

/-- Removes items by id, by filter or by both. When the filter leaves no id to
remove, the table is not written. -/
def deleteItems (name : String) (ids : List String) (filter : Option Filter) :
    Action (Session τ) Unit := do
  ensureConnected
  if ids.isEmpty && (selective filter).isNone then pure ()
  else do
    let compiled ← Action.ofResult (filterCompiler.compile? (selective filter))
    let table ← call (Store.read name)
    let ids := targets table ids ((selective filter).map fun _ => compiled.residual)
    if ids.isEmpty then pure ()
    else do
      call (Store.write name (table.remove ids))
      dropListings name

/-- Drops a table, with what is remembered of it. -/
def dropCollection (name : String) : Action (Session τ) Unit := do
  ensureConnected
  call (Store.drop name)
  forgetWidth name
  dropListings name

/-- How many items a table shows. -/
def countItems (name : String) : Action (Session τ) Nat := do
  ensureConnected
  pure (← call (Store.read name)).visible.length

/-- The hits of a vector among some items; vectors of another width are
passed over. -/
def nearest (metric : Metric) (k : Nat) (candidates : List Item) (v : Embedding) : QueryResult :=
  let hits := candidates.filterMap fun item =>
    item.embedding.bind fun e =>
      if e.length = v.length then some (⟨item, metric.distance v e⟩ : Hit) else none
  finishHits .distance hits Filter.empty k

/-- The best hits for each vector of a query, among the items that pass its
filter. -/
def search (name : String) (query : Query) : Action (Session τ) (List QueryResult) := do
  ensureConnected
  Action.ofResult (checkCount query.k)
  let compiled ← Action.ofResult (filterCompiler.compile? query.filter)
  let table ← call (Store.read name)
  let dimension ← resolve name
  let vectors ← embedding fun c => Batch.queryVectors c name none query.input dimension
  pure (vectors.map (nearest table.metric query.k (compiled.postFilter table.items)))

/-- The adapter to a store of tables. -/
def adapter : Adapter (Session τ) where
  kind := .columnar
  capabilities := filterCompiler.capabilities
  context := Session.context
  isConnected := Session.connected
  connect := do
    let _ ← call Store.tables
    markConnected
  disconnect := Session.disconnect
  listCollections := do
    ensureConnected
    call Store.tables
  createCollection := createCollection
  describe := describe
  addItems := addItems
  getItems := getItems
  listItems := listItems
  updateItems := updateItems
  deleteItems := deleteItems
  dropCollection := dropCollection
  countItems := countItems
  search := search
  metadata := fun _ => pure none

end Columnar

end VectorBridge
