import VectorBridge.Backend
import VectorBridge.Json.Decode
/-!
# Settings

How each family of backends is reached: where it is, what it is told about
the caller, and how long to wait. Settings are kept as JSON with the
family under `type`; what is not set is left out.
-/

namespace VectorBridge

/-- Seconds to wait for an answer, when nothing is said. -/
def defaultTimeout : Nat := 30

/-- How a Chroma server is reached. -/
structure ChromaSettings where
  url : String
  tenant : Option String
  database : Option String
  token : Option String
  timeout : Nat
  deriving DecidableEq, Repr, Inhabited

/-- How a Qdrant server is reached. -/
structure QdrantSettings where
  url : String
  apiKey : Option String
  timeout : Nat
  deriving DecidableEq, Repr, Inhabited

/-- How a PostgreSQL database is reached. -/
structure PostgresSettings where
  url : String
  poolSize : Nat
  /-- How many lists an index is divided into. -/
  indexLists : Nat
  timeout : Nat
  deriving DecidableEq, Repr, Inhabited

/-- How a Milvus server is reached. -/
structure MilvusSettings where
  url : String
  token : Option String
  database : Option String
  timeout : Nat
  deriving DecidableEq, Repr, Inhabited

/-- How a Weaviate server is reached. -/
structure WeaviateSettings where
  url : String
  apiKey : Option String
  timeout : Nat
  deriving DecidableEq, Repr, Inhabited

/-- Where columnar tables are kept: in a directory, or in memory. -/
structure ColumnarSettings where
  path : Option String
  deriving DecidableEq, Repr, Inhabited

/-- How a backend is reached. -/
inductive Settings where
  | chroma (s : ChromaSettings)
  | qdrant (s : QdrantSettings)
  | postgres (s : PostgresSettings)
  | milvus (s : MilvusSettings)
  | weaviate (s : WeaviateSettings)
  | columnar (s : ColumnarSettings)
  deriving DecidableEq, Repr, Inhabited

/-! ## Settings of one address -/

def ChromaSettings.ofUrl (url : String) : ChromaSettings := ⟨url, none, none, none, defaultTimeout⟩

def QdrantSettings.ofUrl (url : String) : QdrantSettings := ⟨url, none, defaultTimeout⟩

def PostgresSettings.ofUrl (url : String) : PostgresSettings := ⟨url, 4, 100, defaultTimeout⟩

def MilvusSettings.ofUrl (url : String) : MilvusSettings := ⟨url, none, none, defaultTimeout⟩

def WeaviateSettings.ofUrl (url : String) : WeaviateSettings := ⟨url, none, defaultTimeout⟩

/-- Tables in memory. -/
def ColumnarSettings.inMemory : ColumnarSettings := ⟨none⟩

namespace Settings

/-- The family. -/
def kind : Settings → BackendKind
  | chroma _ => .chroma
  | qdrant _ => .qdrant
  | postgres _ => .postgres
  | milvus _ => .milvus
  | weaviate _ => .weaviate
  | columnar _ => .columnar

/-- Seconds to wait for an answer; tables on a disk do not wait. -/
def timeout? : Settings → Option Nat
  | chroma s => some s.timeout
  | qdrant s => some s.timeout
  | postgres s => some s.timeout
  | milvus s => some s.timeout
  | weaviate s => some s.timeout
  | columnar _ => none

/-! ## As JSON -/

/-- An optional field. -/
def optionalField (name : String) (value : Option String) : List (String × Json) :=
  value.toList.map fun s => (name, .str s)

/-- The fields, apart from the family. -/
def fields : Settings → List (String × Json)
  | chroma s =>
    [("url", .str s.url), ("timeout_secs", .nat s.timeout)] ++ optionalField "tenant" s.tenant ++
      optionalField "database" s.database ++ optionalField "token" s.token
  | qdrant s =>
    [("url", .str s.url), ("timeout_secs", .nat s.timeout)] ++ optionalField "api_key" s.apiKey
  | postgres s =>
    [("connection_url", .str s.url), ("pool_size", .nat s.poolSize),
      ("index_lists", .nat s.indexLists), ("timeout_secs", .nat s.timeout)]
  | milvus s =>
    [("url", .str s.url), ("timeout_secs", .nat s.timeout)] ++ optionalField "token" s.token ++
      optionalField "database" s.database
  | weaviate s =>
    [("url", .str s.url), ("timeout_secs", .nat s.timeout)] ++ optionalField "api_key" s.apiKey
  | columnar s => optionalField "path" s.path

def toJson (s : Settings) : Json := .ofFields (("type", s.kind.toJson) :: s.fields)

/-- A string that need not be there. -/
def optionalString? (r : Json.Record) (name : String) : Option (Option String) :=
  r.withDefault name none (Json.optionOf? Json.str?)

/-- The seconds to wait. -/
def timeoutOf? (r : Json.Record) : Option Nat :=
  r.withDefault "timeout_secs" defaultTimeout Json.u64?

/-- The settings of a family, out of a record or a list of its fields. -/
def ofContent? (kind : BackendKind) (j : Json) : Option Settings :=
  match kind with
  | .chroma => do
    let r ← Json.Record.ofJson? ["url", "tenant", "database", "token", "timeout_secs"] j
    let url ← r.required "url" Json.str?
    let tenant ← optionalString? r "tenant"
    let database ← optionalString? r "database"
    let token ← optionalString? r "token"
    pure (chroma ⟨url, tenant, database, token, ← timeoutOf? r⟩)
  | .qdrant => do
    let r ← Json.Record.ofJson? ["url", "api_key", "timeout_secs"] j
    let url ← r.required "url" Json.str?
    let apiKey ← optionalString? r "api_key"
    pure (qdrant ⟨url, apiKey, ← timeoutOf? r⟩)
  | .postgres => do
    let r ← Json.Record.ofJson? ["connection_url", "pool_size", "index_lists", "timeout_secs"] j
    let url ← r.required "connection_url" Json.str?
    let poolSize ← r.withDefault "pool_size" 4 Json.u64?
    let indexLists ← r.withDefault "index_lists" 100 Json.u64?
    pure (postgres ⟨url, poolSize, indexLists, ← timeoutOf? r⟩)
  | .milvus => do
    let r ← Json.Record.ofJson? ["url", "token", "database", "timeout_secs"] j
    let url ← r.required "url" Json.str?
    let token ← optionalString? r "token"
    let database ← optionalString? r "database"
    pure (milvus ⟨url, token, database, ← timeoutOf? r⟩)
  | .weaviate => do
    let r ← Json.Record.ofJson? ["url", "api_key", "timeout_secs"] j
    let url ← r.required "url" Json.str?
    let apiKey ← optionalString? r "api_key"
    pure (weaviate ⟨url, apiKey, ← timeoutOf? r⟩)
  | .columnar => do
    let r ← Json.Record.ofJson? ["path"] j
    pure (columnar ⟨← optionalString? r "path"⟩)

/-- Settings out of an object with its family under `type`, or a list that
begins with the family. -/
def ofJson? (j : Json) : Option Settings :=
  match j with
  | .obj fields =>
    match fields.filter fun e => e.1 = "type" with
    | [(_, .str name)] => do
      let kind ← BackendKind.ofName? name
      ofContent? kind (.obj (fields.filter fun e => e.1 ≠ "type"))
    | _ => none
  | .arr (.str name :: rest) => do
    let kind ← BackendKind.ofName? name
    ofContent? kind (.arr rest)
  | _ => none

end Settings

end VectorBridge
