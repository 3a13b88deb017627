import VectorBridge.Adapter.Call
import VectorBridge.Adapter.Unsteady
import VectorBridge.Chroma.Memory
import VectorBridge.Chroma.Rest
import VectorBridge.Columnar.Directory
import VectorBridge.Columnar.Store
import VectorBridge.Milvus.Memory
import VectorBridge.Milvus.Rest
import VectorBridge.Milvus.Store
import VectorBridge.Postgres.Store
import VectorBridge.Qdrant.Store
import VectorBridge.Registry
import VectorBridge.Weaviate.Memory
import VectorBridge.Weaviate.Rest
import VectorBridge.Weaviate.Store
/-!
# Connections

A connection is a session of any kind together with the adapter that acts
on it. What is done with connections of all kinds alike is said once, for
any session, in `onSession`.
-/

namespace VectorBridge

/-- A session with a server of some kind. -/
inductive Connection where
  | chroma (s : Session Chroma.Memory)
  | chromaRest (s : Session Chroma.Rest)
  | qdrant (s : Session Qdrant.Memory)
  | postgres (s : Session Postgres.Memory)
  | milvus (s : Session Milvus.Memory)
  | milvusRest (s : Session Milvus.Rest)
  | weaviate (s : Session Weaviate.Memory)
  | weaviateRest (s : Session Weaviate.Rest)
  /-- Tables in memory. -/
  | tables (s : Session Columnar.Memory)
  /-- Tables in a directory. -/
  | directory (s : Session Columnar.Directory)
  | unsteady (s : Session Outcomes)

namespace Connection

/-- Does the same with a session of any kind. -/
def onSession {α : Type} (f : {τ : Type} → Adapter (Session τ) → Session τ → α × Session τ) :
    Connection → α × Connection
  | chroma s => (f Chroma.family.adapter s).map id chroma
  | chromaRest s => (f Chroma.family.adapter s).map id chromaRest
  | qdrant s => (f Qdrant.family.adapter s).map id qdrant
  | postgres s => (f Postgres.family.adapter s).map id postgres
  | milvus s => (f Milvus.family.adapter s).map id milvus
  | milvusRest s => (f Milvus.family.adapter s).map id milvusRest
  | weaviate s => (f Weaviate.family.adapter s).map id weaviate
  | weaviateRest s => (f Weaviate.family.adapter s).map id weaviateRest
  | tables s => (f Columnar.adapter s).map id tables
  | directory s => (f Columnar.adapter s).map id directory
  | unsteady s => (f Outcomes.adapter s).map id unsteady

/-- Reads something off a session of any kind. -/
def reading {α : Type} (f : {τ : Type} → Adapter (Session τ) → Session τ → α)
    (c : Connection) : α :=
  (c.onSession fun A s => (f A s, s)).1

/-- Makes a call of an adapter. -/
def perform (call : AdapterCall) : Action Connection AdapterAnswer := fun c =>
  c.onSession fun A s => A.perform call s

/-- The requests made to the embedding provider, latest first. -/
def requests (c : Connection) : List EmbeddingRequest := c.reading fun _ s => s.requests

/-- The connection with another way to resolve widths. -/
def resolving (r : DimensionResolver) (c : Connection) : Connection :=
  (c.onSession fun _ s => ((), { s with dimensions := r })).2

/-- A directory opened anew by another adapter; nothing else can be. -/
def reopened : Connection → Connection
  | directory s => directory (.start s.server s.context)
  | c => c

/-- The HTTP requests received at the other end, latest first. -/
def received : Connection → List Http.Request
  | chromaRest s => s.server.client.peer.received
  | milvusRest s => s.server.client.peer.received
  | weaviateRest s => s.server.client.peer.received
  | _ => []

/-- Whether the connection goes over HTTP. -/
def isRest : Connection → Bool
  | chromaRest _ | milvusRest _ | weaviateRest _ => true
  | _ => false

instance : Managed Connection where
  kind := fun c => c.reading fun A _ => A.kind
  isConnected := fun c => c.reading fun A s => A.isConnected s
  connect := fun c => c.onSession fun A s => A.connect s
  disconnect := fun c => c.onSession fun A s => A.disconnect s

end Connection

/-- Whether an adapter can be made from settings: where a server is reached
over HTTP, its URL and token have to be sound. -/
def Settings.check : Settings → Except TransportError Unit
  | .chroma s => (Chroma.Rest.ofSettings? s .absent).map fun _ => ()
  | .milvus s => (Milvus.Rest.ofSettings? s .absent).map fun _ => ()
  | .weaviate s => (Weaviate.Rest.ofSettings? s .absent).map fun _ => ()
  | .qdrant _ | .postgres _ | .columnar _ => .ok ()

end VectorBridge
