import VectorBridge.Family
import VectorBridge.Identifier
import VectorBridge.Weaviate.Server
/-!
# Items on a Weaviate server

An item is an object of its class: its document is a property beside its
metadata, and so is its id unless it is a UUID. A class does not declare a
vector width, so the width is probed.
-/

namespace VectorBridge

namespace Weaviate

/-- An opened collection and its class. -/
structure Opened where
  collection : String
  definition : Class
  deriving Inhabited

/-! ## Objects -/

/-- The property names metadata may not use. -/
def reservedProperties : List String := ["id", "_id", "_additional", documentProperty]

/-- Whether a metadata key can name a property: a letter or underscore, then
letters, digits and underscores, and not a reserved name. -/
def isPropertyName (key : String) : Bool :=
  !reservedProperties.contains key &&
    match key.toList with
    | [] => false
    | c :: cs =>
      (c == '_' || Text.isLetter c) &&
        cs.all fun c => c == '_' || Text.isDigit c || Text.isLetter c

/-- Refuses an item whose metadata has a key that can name no property. -/
def checkProperties (item : Item) : Result Unit :=
  match (Keyed.keys item.metadata).find? fun key => !isPropertyName key with
  | some key => .error <| .invalidInput
    s!"metadata key '{key}' of item '{item.id}' is not a usable Weaviate property name"
  | none => .ok ()

namespace Object

/-- The object of an item. -/
def ofItem (item : Item) : Object :=
  let (id, keepsId) := uuidKey item.id
  let properties := match item.document with
    | some d => Keyed.insert documentProperty (.str d) item.metadata
    | none => item.metadata
  { id
    properties :=
      if keepsId then Keyed.insert givenIdKey (.str item.id) properties else properties
    vector := item.embedding }

/-- The item of an object. -/
def toItem (o : Object) : Item :=
  let (id, metadata) :=
    IdKind.recover (.uuid o.id) (Keyed.erase documentProperty o.properties)
  { id
    document := (Keyed.get? documentProperty o.properties).bind Json.str?
    metadata
    embedding := o.vector }

end Object

section

variable {τ : Type} [Server τ]

/-- Opens a collection. -/
def openCollection (name : String) : Call τ Opened := do
  pure ⟨name, ← Server.describe (className name)⟩

/-- Writes items as objects, once each has a key of its own. -/
def write (c : Opened) (items : List Item) : Action τ Unit := do
  let _ ← Action.ofResult (IdKind.uuid.mapBatch items)
  (Server.put (className c.collection) (items.map Object.ofItem)).toAction

/-- The stored objects of some ids, in the order of the ids. -/
def getAll (name : String) : List String → Call τ (List Item)
  | [] => pure []
  | id :: rest => do
    let found ← Server.get name (uuidKey id).1
    pure (found.toList.map Object.toItem ++ (← getAll name rest))

/-- Removes the objects of some ids. -/
def deleteAll (name : String) : List String → Call τ Unit
  | [] => pure ()
  | id :: rest => do
    Server.delete name (uuidKey id).1
    deleteAll name rest

/-- How many objects one read asks for. -/
def batchSize : Nat := 500

/-- The items of the objects from an offset on, in `rounds` reads at most;
a read that is not full is the last. -/
def readFrom (c : Class) (filter : Option Where) : Nat → Nat → Call τ (List Item)
  | 0, _ => pure []
  | rounds + 1, offset => do
    let objects ← Server.list c filter offset batchSize
    let items := objects.map Object.toItem
    if objects.length < batchSize then pure items
    else pure (items ++ (← readFrom c filter rounds (offset + objects.length)))

/-- The nearest items of each vector. -/
def searchAll (c : Class) (limit : Nat) (filter : Option Where) :
    List Embedding → Call τ (List (List Hit))
  | [] => pure []
  | v :: rest => do
    let found ← Server.near c v limit filter
    let hits := found.map fun (o, distance) => (⟨o.toItem, distance⟩ : Hit)
    pure (hits :: (← searchAll c limit filter rest))

/-- The family of Weaviate servers. -/
def family : Family τ Opened Where Where where
  kind := .weaviate
  compiler := filterCompiler
  ping := Server.ready
  names := Server.classes
  create := fun _ name _ metric => Server.create (className name) metric
  drop := fun name => Server.drop (className name)
  count := fun name => do
    let _ ← openCollection name
    Server.count (className name)
  attach := openCollection
  inspect := fun name => do
    let c ← openCollection name
    pure (c, ⟨.distance, c.definition.metric, none⟩)
  nameOf := Opened.collection
  metadataOf := fun _ => none
  readsMetadata := false
  declaredWidth := fun _ => pure none
  probedWidth := fun c => do
    let definition ← Server.describe (className c.collection)
    let objects ← Server.list definition none 0 1
    pure (objects.findSome? fun o => o.vector.map List.length)
  trustsDeclared := false
  learnsWidth := true
  checkItem := checkProperties
  vectorless := some fun id =>
    s!"Weaviate classes here take supplied vectors, item '{id}' has none"
  write := write
  fetch := fun c ids => getAll (className c.collection) ids
  sample := fun c n => do
    pure ((← Server.list c.definition none 0 n).map Object.toItem)
  fetchAll := fun c filter => do
    (readFrom c.definition filter (Server.rounds (← get)) 0).toAction
  readPage := fun c filter request => do
    let offset ← Action.ofResult request.offset
    let objects ← (Server.list c.definition filter offset request.size).toAction
    Action.ofResult (Page.ofOffset (objects.map Object.toItem) request)
  eraseIds := fun c ids => deleteAll (className c.collection) ids
  eraseWhere := fun c filter => Server.deleteWhere c.definition.name filter
  size := fun c => Server.count c.definition.name
  nearest := fun c _ limit filter vectors => searchAll c.definition limit filter vectors
  rounds := Server.rounds

end

end Weaviate

end VectorBridge
