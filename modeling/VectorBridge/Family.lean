import VectorBridge.Adapter
/-!
# Families of servers

Five families keep their items on a server and differ in how it is asked.
A family says how each question is put; the adapter made from it is the
same for all: what is checked and in which order, when vectors are
computed, what is remembered, and which part of a filter the client
evaluates.
-/

namespace VectorBridge

/-- How a collection is to be searched. -/
structure Scoring where
  ranking : Ranking
  metric : Metric
  /-- The vector width the server declares. -/
  declared : Option Nat
  deriving Inhabited

/-- How servers with states in `τ` are asked. Collections are opened as
handles; fragments of filters go to the server. -/
structure Family (τ Handle Condition Fragment : Type) where
  kind : BackendKind
  compiler : FilterCompiler Condition Fragment
  ping : Call τ Unit
  names : Call τ (List String)
  create : Context → String → Nat → Metric → Call τ Unit
  drop : String → Call τ Unit
  count : String → Call τ Nat
  /-- Opens a collection for reading and writing. -/
  attach : String → Call τ Handle
  /-- Opens a collection and reads its description. -/
  inspect : String → Call τ (Handle × Scoring)
  /-- The name the server gives an opened collection. -/
  nameOf : Handle → String
  /-- What is recorded about an opened collection. -/
  metadataOf : Handle → Option Metadata
  /-- Whether callers may read what is recorded about a collection. -/
  readsMetadata : Bool
  /-- The width declared for a collection. -/
  declaredWidth : Handle → Call τ (Option Nat)
  /-- The width of some stored vector. -/
  probedWidth : Handle → Call τ (Option Nat)
  /-- Whether a description tells the width for good. -/
  trustsDeclared : Bool
  /-- Whether the width of written vectors is remembered. -/
  learnsWidth : Bool
  /-- Whether an item can be stored at all. -/
  checkItem : Item → Result Unit
  /-- What is said about an item without a vector, where every item needs
  one. -/
  vectorless : Option (String → String)
  /-- Inserts or replaces items. -/
  write : Handle → List Item → Action τ Unit
  /-- The stored items of some ids. -/
  fetch : Handle → List String → Call τ (List Item)
  /-- The first items, at most as many as asked for. -/
  sample : Handle → Nat → Call τ (List Item)
  /-- Every item that passes a fragment. -/
  fetchAll : Handle → Option Fragment → Action τ (List Item)
  /-- One page of the items that pass a fragment. -/
  readPage : Handle → Option Fragment → PageRequest → Action τ (Page Item)
  eraseIds : Handle → List String → Call τ Unit
  eraseWhere : Handle → Fragment → Call τ Unit
  /-- How many items an opened collection holds. -/
  size : Handle → Call τ Nat
  /-- The nearest items of each vector that pass a fragment. -/
  nearest : Handle → Scoring → Nat → Option Fragment → List Embedding →
    Call τ (List (List Hit))
  /-- More pages than a listing can have. -/
  rounds : τ → Nat

namespace Family

variable {τ Handle Condition Fragment : Type}

open Session

/-- Resolves the width of an opened collection. -/
def resolve (F : Family τ Handle Condition Fragment) (h : Handle) :
    Action (Session τ) Dimension :=
  resolveWidth (F.nameOf h) (F.declaredWidth h) (F.probedWidth h)

/-- The names of the collections, as the server tells them. -/
def listCollections (F : Family τ Handle Condition Fragment) :
    Action (Session τ) (List String) := do
  ensureConnected
  call F.names

/-- Creates a collection, whose width is known from then on. -/
def createCollection (F : Family τ Handle Condition Fragment) (name : String) (dimension : Nat)
    (metric : Metric) : Action (Session τ) Unit := do
  ensureConnected
  Action.ofResult (checkCreate dimension metric)
  call (F.create (← get).context name dimension metric)
  recordWidth name dimension

/-- A collection's description. Where the server's word on the width is
final it is remembered; elsewhere the width is resolved. -/
def describe (F : Family τ Handle Condition Fragment) (name : String) :
    Action (Session τ) Collection := do
  ensureConnected
  let (h, scoring) ← call (F.inspect name)
  let itemCount ← call (F.size h)
  let sample ← call (F.sample h Batch.sampleSize)
  let width ← if F.trustsDeclared then do
      match scoring.declared with
      | some w => recordWidth name w
      | none => pure ()
      pure scoring.declared
    else do
      pure (← F.resolve h).toOption
  pure { name := F.nameOf h
         vectorDimension := width
         metric := scoring.metric
         itemCount
         metadataFields := Batch.observedFields sample }

/-- Refuses the first item without a vector, where every item needs one. -/
def checkVectors (F : Family τ Handle Condition Fragment) (items : List Item) : Result Unit :=
  match F.vectorless, items.find? fun item => item.embedding.isNone with
  | some message, some item => .error (.invalidInput (message item.id))
  | _, _ => .ok ()

/-- Inserts or replaces items. What the items alone show to be wrong is refused
before the server is asked for anything, and vectors are computed before
widths are compared. -/
def addItems (F : Family τ Handle Condition Fragment) (collection : String) (items : List Item) :
    Action (Session τ) Unit := do
  ensureConnected
  if items.isEmpty then pure ()
  else do
    Action.ofResult (Batch.checkIds items)
    Action.ofResult (Filter.firstError (items.map F.checkItem))
    let h ← call (F.attach collection)
    let items ← embedding fun c => Batch.embedMissing c collection (F.metadataOf h) items
    Action.ofResult (F.checkVectors items)
    let dimension ← F.resolve h
    let width ← Action.ofResult (Batch.checkDimensions dimension items)
    match width with
    | some w => if F.learnsWidth then recordWidth collection w else pure ()
    | none => pure ()
    onServer (F.write h items)
    dropListings collection

/-- The stored items of some ids. For none the server is not asked. -/
def getItems (F : Family τ Handle Condition Fragment) (collection : String) (ids : List String) :
    Action (Session τ) (List Item) := do
  ensureConnected
  if ids.isEmpty then pure []
  else do
    let h ← call (F.attach collection)
    call (F.fetch h ids)

/-- One page of the items that pass a filter. Where the server evaluates the
whole filter it cuts the page; else the listing is fetched whole. -/
def listItems (F : Family τ Handle Condition Fragment) (collection : String)
    (request : PageRequest) (filter : Option Filter) : Action (Session τ) (Page Item) := do
  ensureConnected
  Action.ofResult request.validate
  let compiled ← Action.ofResult (F.compiler.compile? filter)
  let h ← call (F.attach collection)
  if compiled.isComplete then onServer (F.readPage h compiled.native request)
  else
    materialized (listingKey collection filter) request do
      pure (compiled.postFilter (← onServer (F.fetchAll h compiled.native)))

/-- Applies updates to the stored items and writes the results back. -/
def updateItems (F : Family τ Handle Condition Fragment) (collection : String)
    (updates : List ItemUpdate) : Action (Session τ) Unit := do
  ensureConnected
  if updates.isEmpty then pure ()
  else do
    let stored ← F.getItems collection (updates.map (·.id))
    let merged ← Action.ofResult (Batch.mergeUpdates (← get).context stored updates)
    F.addItems collection merged

/-- Removes the items of some ids. -/
def deleteIds (F : Family τ Handle Condition Fragment) (collection : String)
    (ids : List String) : Action (Session τ) Unit :=
  if ids.isEmpty then pure ()
  else do
    let h ← call (F.attach collection)
    call (F.eraseIds h ids)
    dropListings collection

/-- The ids of the items that pass a filter: among those of the given ids,
or among all when none are given. -/
def filteredIds (F : Family τ Handle Condition Fragment) (collection : String)
    (ids : List String) (filter : Filter) : Action (Session τ) (List String) :=
  if ids.isEmpty then do
    let first ← F.listItems collection (.first PageRequest.defaultSize) (some filter)
    let found := first.items.map (·.id)
    match first.next with
    | none => pure found
    | some token => do
      let s ← get
      let held := (Keyed.get? (listingKey collection (some filter)) s.listings).getD []
      let rest ← Adapter.drain (fun request => F.listItems collection request (some filter))
        (F.rounds s.server + held.length) (.next token PageRequest.defaultSize)
      pure (found ++ rest)
  else do
    Action.ofResult filter.validate
    let stored ← F.getItems collection ids
    pure ((stored.filter filter.accepts).map (·.id))

/-- Removes items by id, by filter or by both. A filter alone is left to the
server when it evaluates all of it. -/
def deleteItems (F : Family τ Handle Condition Fragment) (collection : String)
    (ids : List String) (filter : Option Filter) : Action (Session τ) Unit := do
  ensureConnected
  match selective filter with
  | none => F.deleteIds collection ids
  | some filter => do
    let compiled ← Action.ofResult (F.compiler.compile filter)
    match compiled.native, ids.isEmpty && compiled.isComplete with
    | some native, true => do
      let h ← call (F.attach collection)
      call (F.eraseWhere h native)
      dropListings collection
    | _, _ => do
      let found ← F.filteredIds collection ids filter
      F.deleteIds collection found

/-- Drops a collection, with what is remembered of it. -/
def dropCollection (F : Family τ Handle Condition Fragment) (name : String) :
    Action (Session τ) Unit := do
  ensureConnected
  call (F.drop name)
  forgetWidth name
  dropListings name

/-- How many items a collection holds. -/
def countItems (F : Family τ Handle Condition Fragment) (name : String) :
    Action (Session τ) Nat := do
  ensureConnected
  call (F.count name)

/-- The best hits for each vector of a query. Where the client filters on,
the server is asked for as many hits as it has items. -/
def search (F : Family τ Handle Condition Fragment) (collection : String) (query : Query) :
    Action (Session τ) (List QueryResult) := do
  ensureConnected
  Action.ofResult (checkCount query.k)
  let compiled ← Action.ofResult (F.compiler.compile? query.filter)
  let (h, scoring) ← call (F.inspect collection)
  let dimension ← F.resolve h
  let vectors ← embedding fun c =>
    Batch.queryVectors c collection (F.metadataOf h) query.input dimension
  let total ← if compiled.isComplete then pure 0 else call (F.size h)
  let limit := searchLimit compiled.residual query.k total
  let found ← call (F.nearest h scoring limit compiled.native vectors)
  pure (found.map fun hits => finishHits scoring.ranking hits compiled.residual query.k)

/-- What is recorded about a collection, where callers may read it. -/
def metadata (F : Family τ Handle Condition Fragment) (collection : String) :
    Action (Session τ) (Option Metadata) :=
  if F.readsMetadata then do
    ensureConnected
    let h ← call (F.attach collection)
    pure (F.metadataOf h)
  else pure none

/-- The adapter to a family of servers. -/
def adapter (F : Family τ Handle Condition Fragment) : Adapter (Session τ) where
  kind := F.kind
  capabilities := F.compiler.capabilities
  context := Session.context
  isConnected := Session.connected
  connect := do
    call F.ping
    markConnected
  disconnect := Session.disconnect
  listCollections := F.listCollections
  createCollection := F.createCollection
  describe := F.describe
  addItems := F.addItems
  getItems := F.getItems
  listItems := F.listItems
  updateItems := F.updateItems
  deleteItems := F.deleteItems
  dropCollection := F.dropCollection
  countItems := F.countItems
  search := F.search
  metadata := F.metadata

end Family

end VectorBridge
