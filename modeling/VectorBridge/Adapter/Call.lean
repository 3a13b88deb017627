import VectorBridge.Adapter
/-!
# Calls of an adapter

The operations of an adapter as data, so that a history of calls is a list.
A walk reads a listing from its first page to its last.
-/

namespace VectorBridge

/-- A call of an adapter. -/
inductive AdapterCall where
  | connect
  | disconnect
  | isConnected
  | listCollections
  | createCollection (name : String) (dimension : Nat) (metric : Metric)
  | describe (name : String)
  | addItems (name : String) (items : List Item)
  | getItems (name : String) (ids : List String)
  | listItems (name : String) (request : PageRequest) (filter : Option Filter)
  | walk (name : String) (size : Nat) (filter : Option Filter)
  | updateItems (name : String) (updates : List ItemUpdate)
  | deleteItems (name : String) (ids : List String) (filter : Option Filter)
  | dropCollection (name : String)
  | countItems (name : String)
  | search (name : String) (query : Query)
  | embeddingModel (name : String)
  | metadata (name : String)
  | capabilities
  | profileName

/-- What a call answers. -/
inductive AdapterAnswer where
  | done
  | connection (connected : Bool) (kind : BackendKind)
  | names (names : List String)
  | collection (c : Collection)
  | items (items : List Item)
  | page (page : Page Item)
  /-- The pages of a walk and the tokens between them. -/
  | pages (pages : List (Page Item))
  | count (n : Nat)
  | results (results : List QueryResult)
  | text (text : Option String)
  | metadata (metadata : Option Metadata)

namespace AdapterAnswer

/-- The pages by the ids on them, and the tokens between them. -/
def pagesJson (pages : List (Page Item)) : Json :=
  .ofFields [
    ("pages", .arr (pages.map fun p => .arr (p.items.map fun item => .str item.id))),
    ("tokens", .arr (pages.filterMap fun p => p.next.map PageToken.toJson))]

def toJson : AdapterAnswer → Json
  | done => .null
  | connection b k => .arr [.bool b, k.toJson]
  | names l => .arr (l.map .str)
  | collection c => c.toJson
  | items l => .arr (l.map Item.toJson)
  | page p => p.toJson Item.toJson
  | pages l => pagesJson l
  | count n => .nat n
  | results l => .arr (l.map QueryResult.toJson)
  | text s => .ofString? s
  | metadata m => (m.map Json.obj).getD .null

end AdapterAnswer

namespace Adapter

variable {σ : Type}

/-- The pages from a request on, at most `fuel` of them. -/
def pagesFrom (A : Adapter σ) (name : String) (filter : Option Filter) :
    Nat → PageRequest → Action σ (List (Page Item))
  | 0, _ => pure []
  | fuel + 1, request => do
    let page ← A.listItems name request filter
    match page.next with
    | none => pure [page]
    | some token => do
      let rest ← pagesFrom A name filter fuel (.next token request.size)
      pure (page :: rest)

/-- A walk gives up after this many pages. -/
def maxPages : Nat := 100

/-- Makes a call. -/
def perform (A : Adapter σ) : AdapterCall → Action σ AdapterAnswer
  | .connect => do
    A.connect
    pure .done
  | .disconnect => do
    A.disconnect
    pure .done
  | .isConnected => do pure (.connection (A.isConnected (← get)) A.kind)
  | .listCollections => do pure (.names (← A.listCollections))
  | .createCollection name dimension metric => do
    A.createCollection name dimension metric
    pure .done
  | .describe name => do pure (.collection (← A.describe name))
  | .addItems name items => do
    A.addItems name items
    pure .done
  | .getItems name ids => do pure (.items (← A.getItems name ids))
  | .listItems name request filter => do pure (.page (← A.listItems name request filter))
  | .walk name size filter => do
    pure (.pages (← A.pagesFrom name filter maxPages (.first size)))
  | .updateItems name updates => do
    A.updateItems name updates
    pure .done
  | .deleteItems name ids filter => do
    A.deleteItems name ids filter
    pure .done
  | .dropCollection name => do
    A.dropCollection name
    pure .done
  | .countItems name => do pure (.count (← A.countItems name))
  | .search name query => do pure (.results (← A.search name query))
  | .embeddingModel name => do pure (.text (← A.embeddingModel name))
  | .metadata name => do pure (.metadata (← A.metadata name))
  | .capabilities => pure (.names (A.capabilities.serverSideOperators.map Operator.name))
  | .profileName => do pure (.text (A.context (← get)).profileName)

end Adapter

end VectorBridge
