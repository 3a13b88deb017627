import VectorBridge.Batch
import VectorBridge.Filter.Compiler
import VectorBridge.Page
import VectorBridge.Transport
/-!
# Sessions

What an adapter keeps between calls: the server it talks to, its settings,
the widths it learned, the listings it fetched whole, and whether it is
connected. Every step of an adapter is an action on a session; what a step
did before it failed stays done.
-/

namespace VectorBridge

/-- The state of an adapter over servers with states in `τ`. -/
structure Session (τ : Type) where
  server : τ
  context : Context
  dimensions : DimensionResolver
  listings : Listings Item
  connected : Bool
  /-- The requests made to the embedding provider, latest first. -/
  requests : List EmbeddingRequest

namespace Session

variable {τ α : Type}

/-- A session that is not connected yet. -/
def start (server : τ) (context : Context) : Session τ :=
  { server, context, dimensions := .default, listings := [], connected := false, requests := [] }

/-- Acts on the server. -/
def onServer (a : Action τ α) : Action (Session τ) α := fun s =>
  match a s.server with
  | (r, server) => (r, { s with server })

/-- Calls the server. -/
def call (c : Call τ α) : Action (Session τ) α := onServer c.toAction

/-- Acts with the embedding provider. -/
def embedding (f : Context → Action (List EmbeddingRequest) α) : Action (Session τ) α := fun s =>
  match f s.context s.requests with
  | (r, requests) => (r, { s with requests })

/-- Refuses to act without a connection. -/
def ensureConnected : Action (Session τ) Unit := do
  if (← get).connected then pure () else throw .notConnected

/-- Marks the session as connected. -/
def markConnected : Action (Session τ) Unit := modify fun s => { s with connected := true }

/-- Ends the connection and forgets every listing. -/
def disconnect : Action (Session τ) Unit :=
  modify fun s => { s with connected := false, listings := [] }

/-! ## Widths -/

/-- Remembers a collection's width. -/
def recordWidth (collection : String) (width : Nat) : Action (Session τ) Unit :=
  modify fun s => { s with dimensions := s.dimensions.record collection width }

/-- Forgets a collection's width. -/
def forgetWidth (collection : String) : Action (Session τ) Unit :=
  modify fun s => { s with dimensions := s.dimensions.forget collection }

/-- Resolves a collection's width, asking the server when need be. -/
def resolveWidth (collection : String) (declared probed : Call τ (Option Nat)) :
    Action (Session τ) Dimension := fun s =>
  let ask (c : Call τ (Option Nat)) : StateM τ (Result (Option Nat)) := c.toAction
  match s.dimensions.resolve collection (ask declared) (ask probed) s.server with
  | ((r, dimensions), server) => (r, { s with dimensions, server })

/-! ## Listings fetched whole -/

/-- The key of a collection's listing under a filter. -/
def listingKey (collection : String) (filter : Option Filter) : String :=
  Listings.key collection ((filter.map fun f => f.toJson.text).getD "")

/-- Forgets the listings of a collection. -/
def dropListings (collection : String) : Action (Session τ) Unit :=
  modify fun s => { s with listings := s.listings.invalidate (Listings.keyStart collection) }

/-- Keeps a listing under a key. -/
def keepListing (key : String) (items : List Item) : Action (Session τ) Unit :=
  modify fun s => { s with listings := Keyed.insert key items s.listings }

/-- A page of a listing fetched whole. It is fetched for a first page, and
when it is not held; otherwise the page is cut from the one held. -/
def materialized (key : String) (request : PageRequest)
    (fetch : Action (Session τ) (List Item)) : Action (Session τ) (Page Item) := do
  if request.token.isNone || !Keyed.hasKey key (← get).listings then
    keepListing key (← fetch)
  match ← Action.ofResult ((← get).listings.slice? key request) with
  | some page => pure page
  | none => throw (.invalidInput "page token refers to an expired listing")

end Session

/-! ## Checks and rules every family shares -/

/-- Refuses to create a collection of no width or no metric. -/
def checkCreate (dimension : Nat) (metric : Metric) : Result Unit :=
  if dimension = 0 then .error (.invalidInput "vector dimension must be positive")
  else if metric = .unknown then
    .error (.invalidInput "a collection must be created with a known distance metric")
  else .ok ()

/-- Refuses a search for nothing. -/
def checkCount (k : Nat) : Result Unit :=
  if k = 0 then .error (.invalidInput "k must be positive") else .ok ()

/-- How many hits to ask for: where the client filters on, as many as the
collection has. -/
def searchLimit (residual : Filter) (k total : Nat) : Nat :=
  if residual.isEmpty then k else max total k

/-- The result of the hits the backend found: the client's filter applied,
reserved metadata removed, and the best `k` kept. -/
def finishHits (ranking : Ranking) (hits : List Hit) (residual : Filter) (k : Nat) :
    QueryResult :=
  let kept := (hits.filter fun h => residual.accepts h.item).map fun h =>
    { h with item := h.item.stripReserved }
  QueryResult.ofHits ranking (ranking.top (·.score) k kept)

/-- A filter that selects; an empty one is none. -/
def selective (filter : Option Filter) : Option Filter :=
  filter.bind fun f => if f.isEmpty then none else some f

end VectorBridge
