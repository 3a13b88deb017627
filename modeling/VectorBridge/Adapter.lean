import VectorBridge.Backend
import VectorBridge.Filter.Capability
import VectorBridge.Session
/-!
# Adapters

An adapter offers the same operations on every backend: collections are
listed, created, described and dropped, and items added, read, listed page
by page, changed, removed and searched. An adapter is given as its
operations on a state `σ`.
-/

namespace VectorBridge

/-- The operations of an adapter with states in `σ`. -/
structure Adapter (σ : Type) where
  kind : BackendKind
  /-- What the backend evaluates itself. -/
  capabilities : Capabilities
  context : σ → Context
  isConnected : σ → Bool
  connect : Action σ Unit
  disconnect : Action σ Unit
  listCollections : Action σ (List String)
  createCollection : String → Nat → Metric → Action σ Unit
  describe : String → Action σ Collection
  /-- Inserts items, or replaces those of the same ids. -/
  addItems : String → List Item → Action σ Unit
  getItems : String → List String → Action σ (List Item)
  /-- One page of the items that pass a filter. -/
  listItems : String → PageRequest → Option Filter → Action σ (Page Item)
  updateItems : String → List ItemUpdate → Action σ Unit
  /-- Removes the items of some ids that pass a filter; without ids, all
  that pass it. -/
  deleteItems : String → List String → Option Filter → Action σ Unit
  dropCollection : String → Action σ Unit
  countItems : String → Action σ Nat
  /-- The best hits for each vector or text of a query. -/
  search : String → Query → Action σ (List QueryResult)
  /-- What is recorded about a collection as a whole. -/
  metadata : String → Action σ (Option Metadata)

namespace Adapter

variable {σ : Type}

/-- The model whose vectors a collection holds: what the collection's
metadata suggests, else what its first item does. -/
def embeddingModel (A : Adapter σ) (collection : String) : Action σ (Option String) := do
  let metadata ← A.metadata collection
  match (A.context (← get)).modelHint collection metadata none with
  | some model => pure (some model)
  | none => do
    let sample ← A.listItems collection (PageRequest.first 1) none
    let recorded := sample.items.head?.map (·.metadata)
    pure ((A.context (← get)).modelHint collection none recorded)

/-- The ids on the pages from a request on, `fuel` pages at most. -/
def drain (readPage : PageRequest → Action σ (Page Item)) : Nat → PageRequest →
    Action σ (List String)
  | 0, _ => pure []
  | fuel + 1, request => do
    let page ← readPage request
    let ids := page.items.map (·.id)
    match page.next with
    | none => pure ids
    | some token => do
      let rest ← drain readPage fuel (.next token PageRequest.defaultSize)
      pure (ids ++ rest)

end Adapter

end VectorBridge
