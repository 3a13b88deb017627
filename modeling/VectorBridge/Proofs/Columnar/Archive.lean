import Std.Data.ExtTreeMap
import VectorBridge.Columnar.Store
import VectorBridge.Proofs.Catalog
import VectorBridge.Proofs.Placing
/-!
# Rosters of items

What an adapter to columnar tables is to do, said of insertion-ordered maps: a
roster lists the items of a collection in the order in which their ids first
came, and an archive has rosters by name. The archive is an adapter itself. It
has no rows, filler vectors or placeholders, and keeps neither widths nor
listings beside the rosters.
-/

namespace VectorBridge

namespace Columnar

/-- A collection: its width, its metric, and its items in the order in which
their ids first came. No two items have one id. -/
structure Roster where
  width : Nat
  metric : Metric
  items : List Item
  distinct : (items.map (·.id)).Nodup

namespace Roster

/-- A collection without items. -/
def new (width : Nat) (metric : Metric) : Roster := ⟨width, metric, [], List.nodup_nil⟩

/-- Puts an item in place of the one of its id, or at the end. -/
def put (r : Roster) (item : Item) : Roster where
  width := r.width
  metric := r.metric
  items := placeBy (fun other => other.id = item.id) item r.items
  distinct := placeBy.nodup (fun _ _ => decide_eq_true_iff) r.distinct

/-- Puts the items of a batch in, one after the other. -/
def putAll (r : Roster) (batch : List Item) : Roster := batch.foldl put r

/-- The roster without the targets of a removal; the others stay in their
order. -/
def without (r : Roster) (ids : List String) (f : Filter) : Roster where
  width := r.width
  metric := r.metric
  items := r.items.filter fun item => !Shelf.isTarget ids f item
  distinct := List.Nodup.sublist (List.filter_sublist.map _) r.distinct

/-- The item of an id. -/
def find? (r : Roster) (id : String) : Option Item := r.items.find? fun item => item.id = id

/-- The items that pass a filter, in their order. -/
def matching (r : Roster) (filter : Option Filter) : List Item :=
  r.items.filter fun item => filter.all fun f => f.accepts item

/-- The items of some updates, each after its update. No id may be updated
twice, and every one has to be there. -/
def revised (c : Context) (r : Roster) (updates : List ItemUpdate) : Result (List Item) :=
  match Batch.repeated? [] (updates.map (·.id)) with
  | some id => .error (.invalidInput s!"id '{id}' is updated twice in one batch")
  | none => updates.mapM fun u =>
    match r.find? u.id with
    | some item => .ok (item.revised c u)
    | none => .error (.notFound s!"item '{u.id}'")

/-! ### What putting items in does -/

variable {r : Roster}

theorem ids_put_of_mem {item : Item} (h : item.id ∈ r.items.map (·.id)) :
    (r.put item).items.map (·.id) = r.items.map (·.id) :=
  placeBy.map_of_any (fun _ _ => decide_eq_true_iff) h

theorem ids_put_of_not_mem {item : Item} (h : item.id ∉ r.items.map (·.id)) :
    (r.put item).items.map (·.id) = r.items.map (·.id) ++ [item.id] := by
  have hput : (r.put item).items = r.items ++ [item] :=
    placeBy.eq_append (fun _ _ => decide_eq_true_iff) h
  rw [hput, List.map_append, List.map_singleton]

theorem find?_put (r : Roster) (item : Item) (id : String) :
    (r.put item).find? id = if item.id = id then some item else r.find? id :=
  placeBy.find?_eq (fun _ _ => decide_eq_true_iff) id

/-- **The ids of a roster keep their order**, and those of a batch that are new
come after them in the order of the batch. -/
theorem ids_putAll {batch : List Item} (hbatch : (batch.map (·.id)).Nodup) :
    (r.putAll batch).items.map (·.id) =
      r.items.map (·.id) ++ (batch.map (·.id)).filter fun id => id ∉ r.items.map (·.id) := by
  induction batch generalizing r with
  | nil => exact (List.append_nil _).symm
  | cons item batch ih =>
    rw [List.map_cons, List.nodup_cons] at hbatch
    have hrest := ih (r := r.put item) hbatch.2
    rw [putAll, List.foldl_cons, List.map_cons]
    refine hrest.trans ?_
    by_cases hold : item.id ∈ r.items.map (·.id)
    · rw [ids_put_of_mem hold, List.filter_cons_of_neg (by simpa using hold)]
    · -- the new id comes first of those that are new, and not again
      have hlater : (batch.map (·.id)).filter (fun id => id ∉ r.items.map (·.id) ++ [item.id]) =
          (batch.map (·.id)).filter fun id => id ∉ r.items.map (·.id) := by
        refine List.filter_congr fun id hid => ?_
        have hne : id ≠ item.id := fun heq => hbatch.1 (heq ▸ hid)
        simp [hne]
      rw [ids_put_of_not_mem hold, hlater, List.filter_cons_of_pos (by simpa using hold),
        List.append_assoc, List.singleton_append]

/-- **An id of a batch finds the item of the batch**, and every other id what it
found before. -/
theorem find?_putAll {batch : List Item} (hbatch : (batch.map (·.id)).Nodup) (id : String) :
    (r.putAll batch).find? id = (batch.find? fun item => item.id = id).or (r.find? id) := by
  induction batch generalizing r with
  | nil => rfl
  | cons item batch ih =>
    rw [List.map_cons, List.nodup_cons] at hbatch
    have hrest := ih (r := r.put item) hbatch.2
    rw [putAll, List.foldl_cons]
    refine hrest.trans ?_
    rw [find?_put, List.find?_cons]
    by_cases hid : item.id = id
    · have hlater : batch.find? (fun other => other.id = id) = none := by
        rw [List.find?_eq_none]
        rintro other hother heq
        exact hbatch.1 (hid ▸ decide_eq_true_iff.1 heq ▸ List.mem_map_of_mem hother)
      simp [hid, hlater]
    · simp [hid]

end Roster

/-- Refuses a filter with an invalid clause. -/
def checkFilter (filter : Option Filter) : Result Unit := (filter.getD .empty).validate

/-- Collections by name. -/
abbrev Rosters : Type := Std.ExtTreeMap String Roster

/-- The collections, and what a client brings: its settings, whether it is
connected, and what its provider was asked, latest first. -/
structure Archive where
  context : Context
  connected : Bool
  asked : List EmbeddingRequest
  rosters : Rosters

namespace Archive

/-- An archive without collections, and no connection to it. -/
def start (c : Context) : Archive := ⟨c, false, [], ∅⟩

/-- Refuses to act without a connection. -/
def ensureConnected : Action Archive Unit := do
  if (← get).connected then pure () else throw .notConnected

/-- The collection of a name. -/
def roster (name : String) : Action Archive Roster := do
  match (← get).rosters[name]? with
  | some r => pure r
  | none => throw (.notFound s!"table '{name}'")

/-- Puts a collection under a name. -/
def keep (name : String) (r : Roster) : Action Archive Unit :=
  modify fun a => { a with rosters := a.rosters.insert name r }

/-- Acts with the provider. -/
def asking {α : Type} (f : Context → Action (List EmbeddingRequest) α) : Action Archive α :=
  fun a =>
    match f a.context a.asked with
    | (r, asked) => (r, { a with asked })

def createCollection (name : String) (width : Nat) (metric : Metric) : Action Archive Unit := do
  ensureConnected
  Action.ofResult (checkCreate width metric)
  if (← get).rosters[name]?.isSome then
    throw (.invalidInput s!"table '{name}' already exists")
  else keep name (.new width metric)

def dropCollection (name : String) : Action Archive Unit := do
  ensureConnected
  let _ ← roster name
  modify fun a => { a with rosters := a.rosters.erase name }

def describe (name : String) : Action Archive Collection := do
  ensureConnected
  let r ← roster name
  pure { name
         vectorDimension := some r.width
         metric := r.metric
         itemCount := r.items.length
         metadataFields := Batch.observedFields (r.items.take Batch.sampleSize) }

/-- Puts a batch in, with the vectors it lacks. The ids have to be distinct, none
may be reserved, and the vectors have to be as wide as the collection. -/
def addItems (name : String) (batch : List Item) : Action Archive Unit := do
  ensureConnected
  if batch.isEmpty then pure ()
  else do
    Action.ofResult (Batch.checkIds batch)
    Action.ofResult (checkSentinel batch)
    let r ← roster name
    let batch ← asking fun c => Batch.embedMissing c name none batch
    let _ ← Action.ofResult (Batch.commonWidth (some r.width) batch)
    keep name (r.putAll batch)

def getItems (name : String) (ids : List String) : Action Archive (List Item) := do
  ensureConnected
  let r ← roster name
  pure (ids.filterMap r.find?)

/-- A page of the items that pass a filter. -/
def listItems (name : String) (request : PageRequest) (filter : Option Filter) :
    Action Archive (Page Item) := do
  ensureConnected
  Action.ofResult request.validate
  Action.ofResult (checkFilter filter)
  let r ← roster name
  let offset ← Action.ofResult request.offset
  pure (Page.slice (r.matching filter) offset request.size)

def updateItems (name : String) (updates : List ItemUpdate) : Action Archive Unit := do
  ensureConnected
  if updates.isEmpty then pure ()
  else do
    let r ← roster name
    let batch ← Action.ofResult (r.revised (← get).context updates)
    addItems name batch

/-- Removes the items that are among the ids, where some are given, and pass the
filter. Without ids and filter nothing is removed. -/
def deleteItems (name : String) (ids : List String) (filter : Option Filter) :
    Action Archive Unit := do
  ensureConnected
  let f := filter.getD .empty
  if ids.isEmpty && f.isEmpty then pure ()
  else do
    Action.ofResult f.validate
    let r ← roster name
    keep name (r.without ids f)

def countItems (name : String) : Action Archive Nat := do
  ensureConnected
  pure (← roster name).items.length

def search (name : String) (query : Query) : Action Archive (List QueryResult) := do
  ensureConnected
  Action.ofResult (checkCount query.k)
  Action.ofResult (checkFilter query.filter)
  let r ← roster name
  let vectors ← asking fun c => Batch.queryVectors c name none query.input (.known r.width)
  pure (vectors.map (nearest r.metric query.k (r.matching query.filter)))

/-- The archive as an adapter. -/
def adapter : Adapter Archive where
  kind := .columnar
  capabilities := .allResidual
  context := Archive.context
  isConnected := Archive.connected
  connect := modify fun a => { a with connected := true }
  disconnect := modify fun a => { a with connected := false }
  listCollections := do
    ensureConnected
    pure (← get).rosters.keys
  createCollection := createCollection
  describe := describe
  addItems := addItems
  getItems := getItems
  listItems := listItems
  updateItems := updateItems
  deleteItems := deleteItems
  dropCollection := dropCollection
  countItems := countItems
  search := search
  metadata := fun _ => pure none

end Archive

end Columnar

end VectorBridge
