import VectorBridge.Backend
import VectorBridge.Error
import VectorBridge.Uuid.Basic
/-!
# Registries of connections

A registry keeps a bounded number of connections, each under an id, knows
the state of each, and which one is active. Connections do not share
anything; the registry only follows what becomes of them.
-/

namespace VectorBridge

/-- No more connections are kept. -/
def maxConnections : Nat := 10

/-- What became of a connection. -/
inductive ConnectionState where
  | disconnected
  /-- Being connected. -/
  | connecting
  | connected
  /-- Connecting failed the last time. -/
  | error
  deriving DecidableEq, Repr, Inhabited

namespace ConnectionState

def name : ConnectionState → String
  | disconnected => "disconnected"
  | connecting => "connecting"
  | connected => "connected"
  | error => "error"

/-- The state of a name. -/
def ofName? (s : String) : Option ConnectionState :=
  [disconnected, connecting, connected, error].find? fun k => k.name = s

def toJson (s : ConnectionState) : Json := .str s.name

def ofJson? (j : Json) : Option ConnectionState := (Json.choice? j).bind ofName?

end ConnectionState

/-- What a registry tells about a connection. -/
structure Summary where
  id : Uuid
  name : String
  backend : BackendKind
  state : ConnectionState
  lastError : Option String
  deriving DecidableEq, Repr

namespace Summary

def toJson (s : Summary) : Json :=
  .ofFields [
    ("id", .str s.id.text), ("name", .str s.name), ("backend", s.backend.toJson),
    ("state", s.state.toJson), ("last_error", .ofString? s.lastError)]

def ofJson? (j : Json) : Option Summary := do
  let r ← Json.Record.ofJson? ["id", "name", "backend", "state", "last_error"] j
  let id ← r.required "id" fun j => j.str?.bind Uuid.parse?
  let name ← r.required "name" Json.str?
  let backend ← r.required "backend" BackendKind.ofJson?
  let state ← r.required "state" ConnectionState.ofJson?
  let lastError ← r.optional "last_error" Json.str?
  pure { id, name, backend, state, lastError }

end Summary

/-- What a registry has to know about the connections it keeps. -/
class Managed (α : Type) where
  kind : α → BackendKind
  isConnected : α → Bool
  connect : Action α Unit
  disconnect : Action α Unit

/-- A kept connection. -/
structure Entry (α : Type) where
  name : String
  backend : BackendKind
  state : ConnectionState
  lastError : Option String
  connection : α

/-- Connections by id, in the order they were registered. -/
structure Registry (α : Type) where
  entries : List (Uuid × Entry α)
  active : Option Uuid

namespace Registry

variable {α β : Type}

/-- A registry without connections. -/
def empty : Registry α := ⟨[], none⟩

/-- The entry of an id. -/
def find? (r : Registry α) (id : Uuid) : Option (Entry α) := r.entries.lookup id

/-- What is said of an id nothing is registered under. -/
def unknown (id : Uuid) : Error := .notFound s!"connection {id.text}"

/-- The entry of an id, or a failure. -/
def entry (r : Registry α) (id : Uuid) : Result (Entry α) :=
  match r.find? id with
  | some e => .ok e
  | none => .error (unknown id)

/-- The registry with the entry of an id replaced. -/
def replace (r : Registry α) (id : Uuid) (e : Entry α) : Registry α :=
  { r with entries := r.entries.map fun x => if x.1 = id then (id, e) else x }

/-- Registers a connection under a new id. The first one becomes the active
one. -/
def register [Managed α] (id : Uuid) (name : String) (connection : α) :
    Action (Registry α) Uuid := fun r =>
  if maxConnections ≤ r.entries.length then
    (.error (.limitExceeded s!"at most {maxConnections} connections can be open at once"), r)
  else
    let state := if Managed.isConnected connection then .connected else .disconnected
    let e : Entry α := ⟨name, Managed.kind connection, state, none, connection⟩
    (.ok id, { entries := r.entries ++ [(id, e)], active := r.active <|> some id })

/-- Acts on a connection. -/
def use (id : Uuid) (a : Action α β) : Action (Registry α) β := fun r =>
  match r.entry id with
  | .error e => (.error e, r)
  | .ok e =>
    match a e.connection with
    | (result, connection) => (result, r.replace id { e with connection })

/-- Connects a connection, and notes the outcome. -/
def connect [Managed α] (id : Uuid) : Action (Registry α) Unit := fun r =>
  match r.entry id with
  | .error e => (.error e, r)
  | .ok e =>
    match Managed.connect e.connection with
    | (.ok (), connection) =>
      (.ok (), r.replace id { e with state := .connected, lastError := none, connection })
    | (.error failure, connection) =>
      (.error failure, r.replace id
        { e with state := .error, lastError := some failure.display, connection })

/-- Disconnects a connection; one that fails to keeps its state. -/
def disconnect [Managed α] (id : Uuid) : Action (Registry α) Unit := fun r =>
  match r.entry id with
  | .error e => (.error e, r)
  | .ok e =>
    match Managed.disconnect e.connection with
    | (.ok (), connection) => (.ok (), r.replace id { e with state := .disconnected, connection })
    | (.error failure, connection) => (.error failure, r.replace id { e with connection })

/-- The registry without the entry of an id. The first entry left takes its
place as the active one. -/
def without (r : Registry α) (id : Uuid) : Registry α :=
  let entries := r.entries.filter fun x => x.1 ≠ id
  { entries, active := if r.active = some id then entries.head?.map (·.1) else r.active }

/-- Disconnects a connection and forgets it. -/
def remove [Managed α] (id : Uuid) : Action (Registry α) Unit := do
  disconnect id
  modify fun r => r.without id

/-- Disconnects some connections. Each is tried; the first failure is the
result. -/
def disconnectEach [Managed α] : List Uuid → Action (Registry α) Unit
  | [], r => (.ok (), r)
  | id :: rest, r =>
    match disconnect id r with
    | (.ok (), r) => disconnectEach rest r
    | (.error failure, r) => (.error failure, (disconnectEach rest r).2)

/-- Disconnects every connection. -/
def disconnectAll [Managed α] : Action (Registry α) Unit := fun r =>
  disconnectEach (r.entries.map (·.1)) r

/-- The state of a connection. -/
def state (r : Registry α) (id : Uuid) : Result ConnectionState := (r.entry id).map (·.state)

/-- Makes a connection the active one. -/
def setActive (id : Uuid) : Action (Registry α) Unit := fun r =>
  match r.entry id with
  | .error e => (.error e, r)
  | .ok _ => (.ok (), { r with active := some id })

/-- What there is to tell about every connection, in the order they were
registered. -/
def summaries (r : Registry α) : List Summary :=
  r.entries.map fun (id, e) => ⟨id, e.name, e.backend, e.state, e.lastError⟩

end Registry

end VectorBridge
