import VectorBridge.Chroma.Server
import VectorBridge.Http.Client
import VectorBridge.Settings
/-!
# Chroma over HTTP

The questions of a Chroma server as requests. Collections are looked up
under a scope of tenant and database; records are addressed by the id of
their collection. The server answers records column by column.
-/

namespace VectorBridge

namespace Chroma

open Http (Client)

/-- A Chroma server behind a client. -/
structure Rest where
  client : Client
  /-- The query that names tenant and database. -/
  scope : String
  deriving Inhabited

/-! ## Answers -/

/-- A collection's description. -/
def Info.ofJson? (j : Json) : Option Info := do
  let r ← Json.Record.ofJson? ["id", "name", "metadata", "dimension"] j
  let id ← r.required "id" Json.str?
  let name ← r.required "name" Json.str?
  let metadata ← r.withDefault "metadata" none (Json.optionOf? Json.fields?)
  let dimension ← r.withDefault "dimension" none (Json.optionOf? Json.u64?)
  pure { id, name, metadata, dimension }

/-- Records by columns. A missing column, or a missing entry of one, reads
as nothing. -/
structure Columns where
  ids : List String
  documents : List (Option String)
  metadatas : List (Option Metadata)
  embeddings : List (Option Embedding)

/-- The records. -/
def Columns.items (c : Columns) : List Item :=
  c.ids.zipIdx.map fun (id, i) =>
    { id
      document := (c.documents[i]?).join
      metadata := (c.metadatas[i]?).join.getD []
      embedding := (c.embeddings[i]?).join }

/-- A column that may be missing. -/
def column? {α : Type} (r : Json.Record) (name : String) (decode : Json → Option α) :
    Option (List α) :=
  (r.withDefault name none (Json.optionOf? (Json.listOf? decode))).map (·.getD [])

/-- The answer to a reading. -/
def Columns.ofJson? (j : Json) : Option Columns := do
  let r ← Json.Record.ofJson? ["ids", "documents", "metadatas", "embeddings"] j
  let ids ← r.required "ids" (Json.listOf? Json.str?)
  let documents ← column? r "documents" (Json.optionOf? Json.str?)
  let metadatas ← column? r "metadatas" (Json.optionOf? Json.fields?)
  let embeddings ← column? r "embeddings" (Json.optionOf? Embedding.ofJson?)
  pure { ids, documents, metadatas, embeddings }

/-- The answer to a search: columns and distances for each vector. -/
structure Found where
  ids : List (List String)
  distances : List (List Float32)
  documents : List (List (Option String))
  metadatas : List (List (Option Metadata))
  embeddings : List (List (Option Embedding))

def Found.ofJson? (j : Json) : Option Found := do
  let r ← Json.Record.ofJson? ["ids", "distances", "documents", "metadatas", "embeddings"] j
  let ids ← r.required "ids" (Json.listOf? (Json.listOf? Json.str?))
  let distances ← column? r "distances" (Json.listOf? Json.float32?)
  let documents ← column? r "documents" (Json.listOf? (Json.optionOf? Json.str?))
  let metadatas ← column? r "metadatas" (Json.listOf? (Json.optionOf? Json.fields?))
  let embeddings ← column? r "embeddings" (Json.listOf? (Json.optionOf? Embedding.ofJson?))
  pure { ids, distances, documents, metadatas, embeddings }

/-- The hits of the vector at a position; every id needs a distance. -/
def Found.hitsAt (f : Found) (ids : List String) (i : Nat) : Except TransportError (List Hit) :=
  let distances := f.distances.getD i []
  if distances.length ≠ ids.length then
    .error (.malformed "query response has unaligned distances")
  else
    let columns : Columns :=
      ⟨ids, f.documents.getD i [], f.metadatas.getD i [], f.embeddings.getD i []⟩
    .ok (columns.items.zipWith (fun item distance => ⟨item, distance⟩) distances)

/-- The hits of every vector. -/
def Found.hits (f : Found) : Except TransportError (List (List Hit)) :=
  f.ids.zipIdx.mapM fun (ids, i) => f.hitsAt ids i

/-- A failure to find a collection, told apart by status or wording. -/
def missingCollection (name : String) (e : TransportError) : TransportError :=
  let worded := match e with
    | .status _ body => Text.contains body "does not exist"
    | _ => false
  if worded || e.isNotFound then .missing s!"collection '{name}'" else e

/-! ## Requests -/

/-- What is read of every record. -/
def recordParts : List Json := [.str "documents", .str "metadatas", .str "embeddings"]

/-- A list of optional values. -/
def nullable {α : Type} (encode : α → Json) (l : List (Option α)) : Json :=
  .arr (l.map fun v => (v.map encode).getD .null)

/-- The body of a writing. Empty metadata is refused by servers and left
out. -/
def upsertBody (items : List Item) : Json :=
  let filled (m : Metadata) : Option Metadata := if m.isEmpty then none else some m
  .ofFields [
    ("ids", .arr (items.map fun item => .str item.id)),
    ("documents", nullable Json.str (items.map (·.document))),
    ("metadatas", nullable Json.obj (items.map fun item => filled item.metadata)),
    ("embeddings", nullable Embedding.toJson (items.map (·.embedding)))]

/-- The body of a reading. -/
def Selection.body (q : Selection) : Json :=
  .ofFields <|
    [("include", .arr recordParts)] ++
    (q.ids.toList.map fun ids => ("ids", .arr (ids.map .str))) ++
    (q.filter.toList.map fun w => ("where", w)) ++
    (q.limit.toList.map fun n => ("limit", .nat n)) ++
    (q.offset.toList.map fun n => ("offset", .nat n))

/-- The body of a search. -/
def searchBody (vectors : List Embedding) (limit : Nat) (filter : Option Json) : Json :=
  .ofFields <|
    [("query_embeddings", .arr (vectors.map Embedding.toJson)), ("n_results", .nat limit),
      ("include", .arr (recordParts ++ [.str "distances"]))] ++
    filter.toList.map fun w => ("where", w)

namespace Rest

/-- The scope of a tenant and a database. -/
def scopeOf (tenant database : Option String) : String :=
  match (tenant.toList.map ("tenant=" ++ ·)) ++ (database.toList.map ("database=" ++ ·)) with
  | [] => ""
  | params => "?" ++ Text.join "&" params

/-- The server of some settings. -/
def ofSettings? (s : ChromaSettings) (peer : Http.Peer) : Except TransportError Rest := do
  let client ← Client.ofUrl? s.url s.token peer
  pure { client, scope := scopeOf s.tenant s.database }

/-- Acts on the client. -/
def onClient {α : Type} (c : Call Client α) : Call Rest α := fun r =>
  match c r.client with
  | (a, client) => (a, { r with client })

/-- The path of all collections, or of one. -/
def collectionsPath (r : Rest) (suffix : String) : String :=
  "api/v1/collections" ++ suffix ++ r.scope

/-- Posts to a collection. -/
def post {α : Type} (id action : String) (body : Json) (decode : Json → Option α) :
    Call Rest α :=
  onClient (Client.post s!"api/v1/collections/{id}/{action}" body decode)

/-- Lists the collections. -/
def collections : Call Rest (List Info) := do
  onClient (Client.get ((← get).collectionsPath "") (Json.listOf? Info.ofJson?))

/-- Creates a collection, or finds the one of that name. -/
def create (name : String) (metadata : Metadata) : Call Rest Info := do
  let body := Json.ofFields
    [("name", .str name), ("metadata", .obj metadata), ("get_or_create", .bool true)]
  onClient (Client.post ((← get).collectionsPath "") body Info.ofJson?)

/-- Looks up a collection. -/
def find (name : String) : Call Rest Info := do
  let path := (← get).collectionsPath ("/" ++ name)
  (onClient (Client.get path Info.ofJson?)).mapError (missingCollection name)

/-- Drops a collection. -/
def drop (name : String) : Call Rest Unit := do
  let path := (← get).collectionsPath ("/" ++ name)
  (onClient (Client.delete path Client.anything)).mapError (missingCollection name)

/-- Searches a collection. -/
def query (id : String) (vectors : List Embedding) (limit : Nat) (filter : Option Json) :
    Call Rest (List (List Hit)) := do
  let found ← post id "query" (searchBody vectors limit filter) Found.ofJson?
  Call.ofResult found.hits

instance : Server Rest where
  heartbeat := onClient (Client.get "api/v1/heartbeat" Client.anything)
  collections := collections
  create := create
  find := find
  drop := drop
  upsert := fun id items => post id "upsert" (upsertBody items) Client.anything
  get := fun id q => do pure (← post id "get" q.body Columns.ofJson?).items
  query := query
  delete := fun id ids =>
    post id "delete" (.ofFields [("ids", .arr (ids.map .str))]) Client.anything
  deleteWhere := fun id filter => post id "delete" (.ofFields [("where", filter)]) Client.anything
  count := fun id => onClient (Client.get s!"api/v1/collections/{id}/count" Json.u64?)
  rounds := fun r => r.client.peer.replies.length + 2

end Rest

end Chroma

end VectorBridge
