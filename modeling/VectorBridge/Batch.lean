import VectorBridge.Collection
import VectorBridge.Dimension
import VectorBridge.Embedder
import VectorBridge.Query
/-!
# Batches

Checks and completions that every adapter makes on the items of a write
and the vectors of a search.
-/

namespace VectorBridge

namespace Batch

/-- Whether an item waits for a vector of its document. -/
def pending (item : Item) : Bool := item.embedding.isNone && item.document.isSome

/-- Gives the waiting items the vectors, in order. -/
def fill : List Item → List Embedding → List Item
  | [], _ => []
  | items, [] => items
  | item :: items, v :: vs =>
    if pending item then { item with embedding := some v } :: fill items vs
    else item :: fill items (v :: vs)

/-- Computes the missing vectors of a batch in one request. Without a
provider, or with nothing missing, the batch stays as it is. -/
def embedMissing (c : Context) (collection : String) (metadata : Option Metadata)
    (items : List Item) : Action (List EmbeddingRequest) (List Item) :=
  let texts := (items.filter pending).filterMap (·.document)
  if c.embedder.isNone || texts.isEmpty then pure items
  else do
    let vectors ← c.embed collection texts metadata
    pure (fill items vectors)

/-- The common width of the vectors of a batch, starting from a known one;
absent when nothing has a width. -/
def commonWidth : Option Nat → List Item → Result (Option Nat)
  | width, [] => .ok width
  | width, item :: rest =>
    match item.embedding, width with
    | none, _ => commonWidth width rest
    | some v, none => commonWidth (some v.length) rest
    | some v, some expected =>
      if expected = v.length then commonWidth (some expected) rest
      else .error (.dimensionMismatch expected v.length)

/-- Checks the widths of a batch against the collection's and each other. -/
def checkDimensions (d : Dimension) (items : List Item) : Result (Option Nat) :=
  commonWidth d.toOption items

/-- Refuses the first empty or repeated id; `seen` holds the earlier ones. -/
def checkIdsAfter (seen : List String) : List Item → Result Unit
  | [] => .ok ()
  | item :: rest =>
    if item.id.isEmpty then .error (.invalidInput "item id must not be empty")
    else if seen.contains item.id then
      .error (.invalidInput s!"id '{item.id}' appears twice in one batch")
    else checkIdsAfter (item.id :: seen) rest

/-- Refuses the first empty or repeated id. -/
def checkIds (items : List Item) : Result Unit := checkIdsAfter [] items

/-- The first id that occurs a second time. -/
def repeated? (seen : List String) : List String → Option String
  | [] => none
  | id :: rest => if seen.contains id then some id else repeated? (id :: seen) rest

/-- An item after its update. Where a provider can compute a new vector, a
vector of the old document is dropped. -/
def updated (c : Context) (u : ItemUpdate) (item : Item) : Item :=
  let applied := u.apply item
  if u.leavesStale item && c.embedder.isSome then { applied with embedding := none } else applied

/-- The stored item of each update with the update applied, in the order of
the updates. -/
def applyAll (c : Context) (stored : List Item) : List ItemUpdate → Result (List Item)
  | [] => .ok []
  | u :: rest =>
    match (stored.filter fun item => item.id = u.id).getLast? with
    | none => .error (.notFound s!"item '{u.id}'")
    | some item =>
      match applyAll c stored rest with
      | .error e => .error e
      | .ok items => .ok (updated c u item :: items)

/-- Merges updates into the stored items; no id may be updated twice. -/
def mergeUpdates (c : Context) (stored : List Item) (updates : List ItemUpdate) :
    Result (List Item) :=
  match repeated? [] (updates.map (·.id)) with
  | some id => .error (.invalidInput s!"id '{id}' is updated twice in one batch")
  | none => applyAll c stored updates

/-- Checks vectors against a width; the first misfit fails. -/
def checkVectors (d : Dimension) : List Embedding → Result Unit
  | [] => .ok ()
  | v :: rest =>
    match d.check v.length with
    | .error e => .error e
    | .ok () => checkVectors d rest

/-- The vectors of a query, computed from its texts when need be. -/
def queryVectors (c : Context) (collection : String) (metadata : Option Metadata)
    (input : QueryInput) (d : Dimension) :
    Action (List EmbeddingRequest) (List Embedding) := do
  let vectors ← match input with
    | .vectors vs => pure vs
    | .texts texts => c.embed collection texts metadata
  match checkVectors d vectors with
  | .ok () => pure vectors
  | .error e => throw e

/-- Items in the order in which their ids were asked for; those that were
not asked for come first. -/
def inOrderOf (ids : List String) (items : List Item) : List Item :=
  (items.filter fun item => !ids.contains item.id) ++
    ids.eraseDups.flatMap fun id => items.filter fun item => item.id = id

/-- The metadata keys seen in some items, without the reserved one, in
ascending order. -/
def observedFields (items : List Item) : List String :=
  sortedSet ((items.flatMap fun item => Keyed.keys item.metadata).filter (· ≠ givenIdKey))

/-- How many items are looked at to learn the metadata keys. -/
def sampleSize : Nat := 100

end Batch

end VectorBridge
