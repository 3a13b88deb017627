import VectorBridge.Error
/-!
# Calls to a server

A call acts on the state of a server, or of a connection to one, and may
fail. A failure says what went wrong on the way; as an error of an adapter
it keeps its text as the source, except that something missing becomes
*not found*.
-/

namespace VectorBridge

/-- Why a call to a server failed. -/
inductive TransportError where
  /-- Nobody answered. -/
  | unreachable
  /-- The exchange broke down. -/
  | broken
  /-- The server answered with a status that is no success. -/
  | status (code : Nat) (body : String)
  /-- The server reported an error of its own. -/
  | api (code : Int) (message : String)
  /-- No connection could be had. -/
  | pool (text : String)
  /-- A table file could not be read. -/
  | file
  /-- The file system refused. -/
  | io
  /-- An address could not be understood. -/
  | url (text : String)
  /-- An answer did not have the expected shape. -/
  | undecodable
  /-- An answer or a value made no sense. -/
  | malformed (text : String)
  /-- Something looked up does not exist. -/
  | missing (what : String)
  /-- The client stopped dead on the answer. -/
  | stopped
  deriving DecidableEq, Repr, Inhabited

namespace TransportError

/-- The failure's text. -/
def display : TransportError → String
  | unreachable => "HTTP error: error sending request"
  | broken => "HTTP error: error sending request"
  | status code body => s!"HTTP status {code}: {body}"
  | api code message => s!"API error {code}: {message}"
  | pool text => s!"Pool error: {text}"
  | file => "Parquet error"
  | io => "I/O error"
  | url text => s!"Invalid URL: {text}"
  | undecodable => "Serialization error"
  | malformed text => s!"Malformed response: {text}"
  | missing what => s!"{what} not found"
  | stopped => "the client stopped"

/-- Whether the failure says that something does not exist. -/
def isNotFound : TransportError → Bool
  | missing _ => true
  | status code _ => code = 404
  | _ => false

/-- The failure as an adapter's error. -/
def toError : TransportError → Error
  | missing what => .notFound what
  | unreachable => .fromBackend "backend unreachable" "error sending request"
  | status code body =>
    if code = 404 then .notFound s!"resource ({body})"
    else .fromBackend "backend call failed" (status code body).display
  | e => .fromBackend "backend call failed" e.display

theorem isNotFound_iff (e : TransportError) :
    e.toError.isNotFound = true ↔ e.isNotFound = true := by
  cases e <;> simp [toError, isNotFound, Error.isNotFound, Error.notFound, Error.of,
    Error.fromBackend]
  split <;> simp_all

end TransportError

/-- A computation on a state `τ` that may fail on the way. -/
abbrev Call (τ α : Type) : Type := ExceptT TransportError (StateM τ) α

namespace Call

variable {τ α : Type}

/-- The call as an action, its failure turned into an error. -/
def toAction (c : Call τ α) : Action τ α := fun t =>
  match c t with
  | (.ok a, t') => (.ok a, t')
  | (.error e, t') => (.error e.toError, t')

/-- The call with its failure looked at again. -/
def mapError (f : TransportError → TransportError) (c : Call τ α) : Call τ α := fun t =>
  match c t with
  | (r, t') => (r.mapError f, t')

/-- A result as a call. -/
def ofResult (r : Except TransportError α) : Call τ α := fun t => (r, t)

/-- A call that only looks at the state. -/
def read (f : τ → Except TransportError α) : Call τ α := fun t => (f t, t)

end Call

namespace Action

variable {σ α : Type}

/-- A result as an action. -/
def ofResult (r : Result α) : Action σ α := fun s => (r, s)

end Action

end VectorBridge
