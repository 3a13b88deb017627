import VectorBridge.Error
import VectorBridge.Settings
import VectorBridge.Url.Basic
/-!
# Profiles

A profile is a plain map of credentials. It becomes settings once a
provider is named: an explicit `url` wins over host and port, and blanks
around keys, names and paths do not count.
-/

namespace VectorBridge

/-- A map of credentials. -/
abbrev Profile : Type := Keyed String String

namespace Profile

/-- An entry that is not empty. -/
def filled? (p : Profile) (key : String) : Option String :=
  (Keyed.get? key p).filter fun s => !s.isEmpty

/-- An entry without blanks at its ends, unless nothing is left of it. -/
def trimmed? (p : Profile) (key : String) : Option String :=
  ((Keyed.get? key p).map Text.trim).filter fun s => !s.isEmpty

/-- The port, or the family's own one. -/
def port (p : Profile) (familyPort : Nat) : Result Nat :=
  match p.filled? "port" with
  | none => .ok familyPort
  | some s =>
    match Text.natUpTo? 65535 s with
    | some n => .ok n
    | none => .error (.invalidInput s!"'{s}' is not a valid port")

/-- The host, by default this one. -/
def host (p : Profile) : String := (Keyed.get? "host" p).getD "localhost"

/-- The URL of a server: as given, or made of host and port. -/
def serverUrl (p : Profile) (familyPort : Nat) : Result String :=
  match p.filled? "url" with
  | some url => .ok url
  | none => do
    let port ← p.port familyPort
    pure s!"http://{p.host}:{port}"

/-- A URL with the user of a profile. -/
def withUser (p : Profile) (u : Url) : Result Url :=
  match Keyed.get? "user" p with
  | none => .ok u
  | some user =>
    match u.withUsername? user with
    | some u => .ok u
    | none => .error (.invalidInput "postgres url cannot carry a user")

/-- A URL with the password of a profile. -/
def withPassword (p : Profile) (u : Url) : Result Url :=
  match Keyed.get? "password" p with
  | none => .ok u
  | some password =>
    match u.withPassword? password with
    | some u => .ok u
    | none => .error (.invalidInput "postgres url cannot carry a password")

/-- The URL of a database: as given, or made of host, port and database,
with user and password encoded. -/
def postgresUrl (p : Profile) : Result String :=
  match p.filled? "url" with
  | some url => .ok url
  | none => do
    let port ← p.port 5432
    let database := (Keyed.get? "database" p).getD "postgres"
    match Url.parse? s!"postgres://{p.host}:{port}/{database}" with
    | .error e => throw (.invalidInput s!"invalid postgres address: {e.text}")
    | .ok u => do
      let u ← p.withPassword (← p.withUser u)
      pure u.text

/-- The token of a Milvus server: a key, or user and password. -/
def milvusToken (p : Profile) : Option String :=
  match p.trimmed? "api_key", p.trimmed? "user", p.trimmed? "password" with
  | some key, _, _ => some key
  | none, some user, some password => some (user ++ ":" ++ password)
  | none, _, _ => none

end Profile

namespace Settings

/-- The family a provider's name means, whatever its case. -/
def familyOf? (provider : String) : Option BackendKind :=
  let name := Text.lower provider
  if name = "postgres" ∨ name = "postgresql" then some .postgres
  else if name = "lancedb" ∨ name = "parquet" then some .columnar
  else BackendKind.ofName? name

/-- The settings of a profile. -/
def ofProfile (provider : String) (p : Profile) : Result Settings :=
  match familyOf? provider with
  | some .chroma => do
    pure (chroma { ChromaSettings.ofUrl (← p.serverUrl 8000) with
      database := p.trimmed? "database", token := p.trimmed? "api_key" })
  | some .qdrant => do
    pure (qdrant { QdrantSettings.ofUrl (← p.serverUrl 6334) with apiKey := p.trimmed? "api_key" })
  | some .postgres => do pure (postgres (.ofUrl (← p.postgresUrl)))
  | some .milvus => do
    pure (milvus { MilvusSettings.ofUrl (← p.serverUrl 19530) with
      token := p.milvusToken, database := p.trimmed? "database" })
  | some .weaviate => do
    pure (weaviate { WeaviateSettings.ofUrl (← p.serverUrl 8080) with
      apiKey := p.trimmed? "api_key" })
  | some .columnar => .ok (columnar ⟨p.trimmed? "path"⟩)
  | none =>
    .error (.invalidInput s!"unknown vector database provider '{Text.lower provider}'")

end Settings

/-- The URL with its password hidden. -/
def PostgresSettings.masked (s : PostgresSettings) : String :=
  match Url.parse? s.url with
  | .error _ => "<invalid url>"
  | .ok u =>
    if u.password.isSome then ((u.withPassword? "****").getD u).text else u.text

end VectorBridge
