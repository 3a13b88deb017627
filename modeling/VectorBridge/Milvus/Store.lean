import VectorBridge.Family
import VectorBridge.Milvus.Server
/-!
# Items on a Milvus server

An item is a row: its document, vector and metadata side by side, under a
key of the kind the collection's schema asks for. Where keys are integers,
an item that is stored already keeps its key, and no item takes the key of
another.
-/

namespace VectorBridge

namespace Milvus

/-- An opened collection. -/
structure Opened where
  name : String
  schema : Schema
  deriving Inhabited

/-! ## Rows -/

/-- The fields metadata may not use. -/
def Schema.reserved (s : Schema) : List String :=
  [s.primaryField, s.vectorField, documentFieldName]

/-- The value of a key. -/
def keyJson : BackendId → Json
  | .integer n => .nat n
  | id => .str id.text

/-- The row of an item under a key. -/
def rowOf (schema : Schema) (item : Item) (m : MappedId) : Result Row :=
  match (Keyed.keys item.metadata).find? fun key => schema.reserved.contains key with
  | some key => .error <| .invalidInput
    s!"metadata key '{key}' of item '{item.id}' collides with a Milvus schema field"
  | none =>
    let row := Keyed.insert schema.primaryField (keyJson m.backend) item.metadata
    let row := Keyed.insert documentFieldName (.str (item.document.getD "")) row
    let row := Keyed.insert schema.vectorField (Embedding.toJson (item.embedding.getD [])) row
    .ok (if m.keepsId then Keyed.insert givenIdKey (.str item.id) row else row)

/-- The key in a row. -/
def keyOf (schema : Schema) (row : Row) : BackendId :=
  match Keyed.get? schema.primaryField row with
  | some (.num n) =>
    match (Json.num n).u64? with
    | some k => .integer k
    | none => .string n.text
  | some (.str s) => .string s
  | _ => .string ""

/-- The item of a row. An empty document counts as none. -/
def itemOf (schema : Schema) (row : Row) : Item :=
  let key := keyOf schema row
  let row := Keyed.erase schema.primaryField row
  let document := match Keyed.get? documentFieldName row with
    | some (.str d) => if d.isEmpty then none else some d
    | _ => none
  let row := Keyed.erase documentFieldName row
  let embedding := vectorOf? row schema.vectorField
  let (id, metadata) := IdKind.recover key (Keyed.erase schema.vectorField row)
  { id, document, metadata, embedding }

/-- The rows of some items under their keys; the first failure wins. -/
def rowsOf (schema : Schema) : List Item → List MappedId → Result (List Row)
  | item :: items, m :: ms =>
    match rowOf schema item m with
    | .error e => .error e
    | .ok row =>
      match rowsOf schema items ms with
      | .error e => .error e
      | .ok rows => .ok (row :: rows)
  | _, _ => .ok []

/-! ## Keys -/

/-- The number an id is written as. -/
def plainNumber? (id : String) : Option Nat :=
  match Text.natUpTo? (Word.span64 - 1) id with
  | some n => if toString n = id then some n else none
  | none => none

/-- The expressions that together select the rows of some ids. Integer keys
hold the ids that are numbers; the others stand in the metadata. -/
def idSelectors (schema : Schema) (ids : List String) : List Expr :=
  if schema.idKind ≠ .integer then
    [Expr.primaryIn schema.primaryField (ids.map .str)]
  else
    let numeric := ids.filterMap plainNumber?
    let named := ids.filter fun id => (plainNumber? id).isNone
    (if numeric.isEmpty then []
     else [Expr.primaryIn schema.primaryField (numeric.map fun n => .num (.int (Int.ofNat n)))]) ++
    (if named.isEmpty then []
     else [⟨[⟨.dynamic givenIdKey, .isIn, .list (named.map .str)⟩]⟩])

/-- The first id that claims a key claimed before, with the earlier claim. -/
def clash? : List (Nat × String) → List (Nat × String) → Option (String × String × Nat)
  | _, [] => none
  | claimed, (key, id) :: rest =>
    match claimed.lookup key with
    | some previous => some (previous, id, key)
    | none => clash? ((key, id) :: claimed) rest

/-- The first id whose key belongs to another id. -/
def foreign? (owners : List (Nat × String)) : List (Nat × String) → Option (String × Nat × String)
  | [] => none
  | (key, id) :: rest =>
    match owners.lookup key with
    | some owner => if owner = id then foreign? owners rest else some (id, key, owner)
    | none => foreign? owners rest

/-- The key an item is stored under already, else the one mapped to it. -/
def settle (stored : List (String × Nat)) (item : Item) (m : MappedId) : MappedId :=
  match stored.lookup item.id with
  | some key => ⟨.integer key, toString key != item.id⟩
  | none => m

/-- The integer keys of some items. -/
def integerKeys (items : List Item) (mapped : List MappedId) : List (Nat × String) :=
  (items.zip mapped).filterMap fun (item, m) =>
    match m.backend with
    | .integer key => some (key, item.id)
    | _ => none

section

variable {τ : Type} [Server τ]

/-- Which ids hold the integer keys of the selected rows. -/
def owners (c : Opened) (selector : Expr) (limit : Nat) : Call τ (List (Nat × String)) := do
  let rows ← Server.query c.name (some selector) 0 limit
  pure (rows.filterMap fun row =>
    ((Keyed.get? c.schema.primaryField row).bind Json.u64?).map fun key =>
      (key, (itemOf c.schema row).id))

/-- The owners under several selectors. -/
def ownersOfAll (c : Opened) (limit : Nat) : List Expr → Call τ (List (Nat × String))
  | [] => pure []
  | selector :: rest => do
    let first ← owners c selector limit
    pure (first ++ (← ownersOfAll c limit rest))

/-- Keys for a batch of items. Integer keys are checked against the batch
and against the rows that hold them. -/
def assignKeys (c : Opened) (items : List Item) : Action τ (List MappedId) := do
  let mapped ← Action.ofResult (c.schema.idKind.mapBatch items)
  if c.schema.idKind ≠ .integer then pure mapped
  else do
    let ids := items.map (·.id)
    let held ← (ownersOfAll c ids.length (idSelectors c.schema ids)).toAction
    let stored := held.reverse.map fun (key, id) => (id, key)
    let settled := List.zipWith (settle stored) items mapped
    let claims := integerKeys items settled
    match clash? [] claims with
    | some (previous, id, key) =>
      throw <| .invalidInput
        s!"ids '{previous}' and '{id}' map to the same Milvus key {key}"
    | none => do
      let selector := Expr.primaryIn c.schema.primaryField
        (claims.map fun (key, _) => .num (.int (Int.ofNat key)))
      let holders ← (owners c selector claims.length).toAction
      match foreign? holders.reverse claims with
      | some (id, key, owner) =>
        throw <| .invalidInput
          s!"id '{id}' maps to Milvus key {key} which already holds '{owner}'"
      | none => pure settled

/-! ## Reading -/

/-- How many rows one read asks for. -/
def batchSize : Nat := 1000

/-- The items of the rows from an offset on, read batch by batch. The
window bounds the reads; reaching it fails. -/
def readFrom (c : Opened) (filter : Option Expr) (offset : Nat) : Action τ (List Item) :=
  if _ : offset < window then do
    let limit := min batchSize (window - offset)
    let rows ← (Server.query c.name filter offset limit).toAction
    let items := rows.map (itemOf c.schema)
    if _ : rows.length < limit then pure items
    else do
      let rest ← readFrom c filter (offset + rows.length)
      pure (items ++ rest)
  else throw (.limitExceeded s!"Milvus queries stop at {window} rows, narrow the filter")
termination_by window - offset
decreasing_by
  have : limit = min batchSize (window - offset) := rfl
  have : 0 < batchSize := by decide
  omega

/-- The items under several selectors. -/
def selectAll (c : Opened) (limit : Nat) : List Expr → Call τ (List Item)
  | [] => pure []
  | selector :: rest => do
    let rows ← Server.query c.name (some selector) 0 limit
    pure (rows.map (itemOf c.schema) ++ (← selectAll c limit rest))

/-- Removes the rows under several selectors. -/
def deleteAll (c : Opened) : List Expr → Call τ Unit
  | [] => pure ()
  | selector :: rest => do
    Server.delete c.name selector
    deleteAll c rest

/-- The nearest items of each vector. -/
def searchAll (c : Opened) (limit : Nat) (filter : Option Expr) :
    List Embedding → Call τ (List (List Hit))
  | [] => pure []
  | v :: rest => do
    let found ← Server.search c.name c.schema.vectorField v limit filter
    let hits := found.map fun (row, score) => (⟨itemOf c.schema row, score⟩ : Hit)
    pure (hits :: (← searchAll c limit filter rest))

/-- Opens a collection. -/
def openCollection (name : String) : Call τ Opened := do
  pure ⟨name, ← Server.describe name⟩

/-- The family of Milvus servers. -/
def family : Family τ Opened Term Expr where
  kind := .milvus
  compiler := filterCompiler
  ping := Server.health
  names := Server.names
  create := fun _ name width metric => Server.create name width metric
  drop := fun name => do
    let _ ← openCollection name
    Server.drop name
  count := Server.count
  attach := openCollection
  inspect := fun name => do
    let c ← openCollection name
    pure (c, ⟨ranking c.schema.metric, c.schema.metric, c.schema.dimension⟩)
  nameOf := Opened.name
  metadataOf := fun _ => none
  readsMetadata := false
  declaredWidth := fun c => do pure (← Server.describe c.name).dimension
  probedWidth := fun c => do
    let schema ← Server.describe c.name
    let rows ← Server.query c.name none 0 1
    pure (rows.findSome? fun row => (itemOf schema row).embedding.map List.length)
  trustsDeclared := true
  learnsWidth := false
  checkItem := fun _ => .ok ()
  vectorless := some fun id => s!"Milvus stores a vector for every entity, item '{id}' has none"
  write := fun c items => do
    let keys ← assignKeys c items
    let rows ← Action.ofResult (rowsOf c.schema items keys)
    (Server.upsert c.name rows).toAction
  fetch := fun c ids => do
    pure (Batch.inOrderOf ids (← selectAll c ids.length (idSelectors c.schema ids)))
  sample := fun c n => do
    pure ((← Server.query c.name none 0 n).map (itemOf c.schema))
  fetchAll := fun c filter => readFrom c filter 0
  readPage := fun c filter request => do
    let offset ← Action.ofResult request.offset
    if offset + request.size > window then
      throw (.limitExceeded s!"Milvus pages end at row {window}")
    else do
      let rows ← (Server.query c.name filter offset request.size).toAction
      Action.ofResult (Page.ofOffset (rows.map (itemOf c.schema)) request)
  eraseIds := fun c ids => deleteAll c (idSelectors c.schema ids)
  eraseWhere := fun c filter => Server.delete c.name filter
  size := fun c => Server.count c.name
  nearest := fun c _ limit filter vectors => searchAll c (min limit window) filter vectors
  rounds := Server.rounds

end

end Milvus

end VectorBridge
