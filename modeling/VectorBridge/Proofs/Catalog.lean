import Std.Data.ExtTreeMap
import VectorBridge.Adapter.Call
import VectorBridge.Postgres.Filter
/-!
# Catalogs

What a database of collections is to do, said of finite maps and nothing else:
a catalog maps names to collections, and a collection maps ids to items. There
are no rows, statements, sessions or caches here. A call that fails leaves the
catalog as it is.
-/

namespace VectorBridge

/-- A call that creates, changes or reads collections. -/
inductive CatalogCall where
  | create (name : String) (width : Nat) (metric : Metric)
  | drop (name : String)
  | add (name : String) (items : List Item)
  | update (name : String) (updates : List ItemUpdate)
  | delete (name : String) (ids : List String) (filter : Option Filter)
  | get (name : String) (ids : List String)
  | list (name : String) (request : PageRequest) (filter : Option Filter)
  | count (name : String)

/-- The call as one of an adapter. -/
def CatalogCall.toCall : CatalogCall → AdapterCall
  | create name width metric => .createCollection name width metric
  | drop name => .dropCollection name
  | add name items => .addItems name items
  | update name updates => .updateItems name updates
  | delete name ids filter => .deleteItems name ids filter
  | get name ids => .getItems name ids
  | list name request filter => .listItems name request filter
  | count name => .countItems name

/-- A collection: its width, and its items by id. -/
structure Shelf where
  width : Nat
  items : Std.ExtTreeMap String Item

/-- Collections by name. -/
abbrev Catalog : Type := Std.ExtTreeMap String Shelf

namespace Shelf

/-- The items that pass a filter, in ascending order of their ids. -/
def matching (s : Shelf) (filter : Option Filter) : List Item :=
  (s.items.toList.map (·.2)).filter fun item => filter.all fun f => f.accepts item

/-- The collection with the items of a batch put in, each under its id. -/
def put (s : Shelf) (batch : List Item) : Shelf :=
  { s with items := batch.foldl (fun items item => items.insert item.id item) s.items }

/-- Whether a removal by ids and filter is about an item: without ids, about
every item that passes. -/
def isTarget (ids : List String) (f : Filter) (item : Item) : Bool :=
  (ids.isEmpty || ids.contains item.id) && f.accepts item

/-- The collection without the targets of a removal. -/
def without (s : Shelf) (ids : List String) (f : Filter) : Shelf :=
  { s with items := s.items.filter fun _ item => !isTarget ids f item }

end Shelf

/-- An item after an update: the supplied parts are taken over. A vector that
was made of another document is dropped where a new one can be computed. -/
def Item.revised (c : Context) (u : ItemUpdate) (item : Item) : Item where
  id := item.id
  document := u.document <|> item.document
  metadata := u.metadata.getD item.metadata
  embedding :=
    if u.embedding.isSome then u.embedding
    else if c.embedder.isSome && u.document.isSome && u.document != item.document then none
    else item.embedding

/-- A batch with the vectors it lacks, computed in one request by a provider
whose answer depends on the request alone. -/
def Context.completed (c : Context) (name : String) (batch : List Item) : Result (List Item) :=
  let texts := (batch.filter Batch.pending).filterMap (·.document)
  match c.embedder with
  | none => .ok batch
  | some provider =>
    if texts.isEmpty then .ok batch
    else
      match provider.answer [] ⟨name, texts, c.modelHint name none none⟩ with
      | .error e => .error e
      | .ok vectors =>
        if vectors.length = texts.length then .ok (Batch.fill batch vectors)
        else .error <| .backend
          s!"embedding provider returned {vectors.length} vectors for {texts.length} texts"

/-- Whether a provider's answer depends on the request alone. -/
def Context.IsSteady (c : Context) : Prop :=
  ∀ provider, c.embedder = some provider →
    ∀ log request, provider.answer log request = provider.answer [] request

namespace Catalog

/-- The collection of a name. -/
def shelf (m : Catalog) (name : String) : Result Shelf :=
  match m[name]? with
  | some s => .ok s
  | none => .error (.notFound s!"table '{name}'")

def create (m : Catalog) (name : String) (width : Nat) (metric : Metric) : Result Catalog := do
  checkCreate width metric
  if m[name]?.isSome then
    .error (.fromBackend "backend call failed" s!"API error 0: relation \"{name}\" already exists")
  else .ok (m.insert name ⟨width, ∅⟩)

def drop (m : Catalog) (name : String) : Result Catalog := do
  let _ ← m.shelf name
  pure (m.erase name)

/-- Puts a batch into a collection. A batch of nothing is fine anywhere; else
the ids have to be distinct and the vectors as wide as the collection. -/
def add (c : Context) (m : Catalog) (name : String) (batch : List Item) : Result Catalog :=
  if batch.isEmpty then .ok m
  else do
    Batch.checkIds batch
    let batch ← c.completed name batch
    let s ← m.shelf name
    let _ ← Batch.commonWidth (some s.width) batch
    pure (m.insert name (s.put batch))

/-- Revises stored items, each at most once. -/
def update (c : Context) (m : Catalog) (name : String) (updates : List ItemUpdate) :
    Result Catalog :=
  if updates.isEmpty then .ok m
  else do
    let s ← m.shelf name
    match Batch.repeated? [] (updates.map (·.id)) with
    | some id => .error (.invalidInput s!"id '{id}' is updated twice in one batch")
    | none => do
      let batch ← updates.mapM fun u =>
        match s.items[u.id]? with
        | some item => .ok (item.revised c u)
        | none => .error (.notFound s!"item '{u.id}'")
      m.add c name batch

/-- Removes the items that are among the ids, where some are given, and pass
the filter. Without ids and filter nothing is removed. -/
def delete (m : Catalog) (name : String) (ids : List String) (filter : Option Filter) :
    Result Catalog := do
  let f := filter.getD .empty
  let _ ← Postgres.filterCompiler.compile f
  if ids.isEmpty && f.isEmpty then .ok m
  else do
    let s ← m.shelf name
    pure (m.insert name (s.without ids f))

/-- The stored items among some ids, each once, in the order in which the ids
first occur. -/
def get (m : Catalog) (name : String) (ids : List String) : Result (List Item) :=
  if ids.isEmpty then .ok []
  else do
    let s ← m.shelf name
    pure (ids.eraseDups.filterMap fun id => s.items[id]?)

/-- A page of the items that pass a filter. Another page is promised when this
one is full. -/
def list (m : Catalog) (name : String) (request : PageRequest) (filter : Option Filter) :
    Result (Page Item) := do
  request.validate
  let _ ← Postgres.filterCompiler.compile? filter
  let offset ← request.offset
  let s ← m.shelf name
  let found := s.matching filter
  pure
    { items := (found.drop offset).take request.size
      next := if offset + request.size ≤ found.length then
          some (.offset (offset + request.size))
        else none }

def count (m : Catalog) (name : String) : Result Nat := do
  pure (← m.shelf name).items.size

/-- The answer of a call that only reads. -/
def reading {α : Type} (m : Catalog) (r : Result α) (answer : α → AdapterAnswer) :
    Result AdapterAnswer × Catalog :=
  (r.map answer, m)

/-- The answer of a call that changes the catalog, or leaves it and fails. -/
def changing (m : Catalog) : Result Catalog → Result AdapterAnswer × Catalog
  | .ok m' => (.ok .done, m')
  | .error e => (.error e, m)

/-- Makes a call. -/
def perform (c : Context) (m : Catalog) : CatalogCall → Result AdapterAnswer × Catalog
  | .create name width metric => m.changing (m.create name width metric)
  | .drop name => m.changing (m.drop name)
  | .add name batch => m.changing (m.add c name batch)
  | .update name updates => m.changing (m.update c name updates)
  | .delete name ids filter => m.changing (m.delete name ids filter)
  | .get name ids => m.reading (m.get name ids) .items
  | .list name request filter => m.reading (m.list name request filter) .page
  | .count name => m.reading (m.count name) .count

/-- The answers of a history of calls, and the catalog after it. -/
def run (c : Context) (m : Catalog) : List CatalogCall → List (Result AdapterAnswer) × Catalog
  | [] => ([], m)
  | call :: calls =>
    let (answer, m) := m.perform c call
    let (answers, m) := run c m calls
    (answer :: answers, m)

end Catalog

end VectorBridge
