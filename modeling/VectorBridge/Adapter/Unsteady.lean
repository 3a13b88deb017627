import VectorBridge.Adapter
/-!
# An unsteady adapter

An adapter that does nothing but connect and disconnect, with outcomes
given beforehand. It serves to rehearse how connections are kept track of
when they fail.
-/

namespace VectorBridge

/-- The outcomes to come: none for success, else a message. -/
structure Outcomes where
  /-- Of connecting, in turn; the last one stays. None at all always
  succeed. -/
  connects : List (Option String)
  /-- Of every disconnecting. -/
  disconnect : Option String
  deriving Inhabited

namespace Outcomes

/-- The outcome of connecting now, and those that follow. -/
def next (o : Outcomes) : Option String × Outcomes :=
  match o.connects with
  | [] => (none, o)
  | [last] => (last, o)
  | first :: rest => (first, { o with connects := rest })

/-- Connects, or fails as foreseen. -/
def connecting : Action (Session Outcomes) Unit := fun s =>
  let (outcome, server) := s.server.next
  match outcome with
  | none => (.ok (), { s with server, connected := true })
  | some message => (.error (.backend message), { s with server })

/-- Disconnects, or fails as foreseen. -/
def disconnecting : Action (Session Outcomes) Unit := fun s =>
  match s.server.disconnect with
  | none => (.ok (), { s with connected := false })
  | some message => (.error (.backend message), s)

/-- Fails, as nothing can be done with the connection. -/
def refuse {α : Type} : Action (Session Outcomes) α := throw .notConnected

/-- The adapter. It passes for a PostgreSQL database. -/
def adapter : Adapter (Session Outcomes) where
  kind := .postgres
  capabilities := .allResidual
  context := Session.context
  isConnected := Session.connected
  connect := connecting
  disconnect := disconnecting
  listCollections := refuse
  createCollection := fun _ _ _ => refuse
  describe := fun _ => refuse
  addItems := fun _ _ => refuse
  getItems := fun _ _ => refuse
  listItems := fun _ _ _ => refuse
  updateItems := fun _ _ => refuse
  deleteItems := fun _ _ _ => refuse
  dropCollection := fun _ => refuse
  countItems := fun _ => refuse
  search := fun _ _ => refuse
  metadata := fun _ => pure none

end Outcomes

end VectorBridge
