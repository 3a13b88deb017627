/-!
# Errors

An error has a kind, which callers branch on, a message for people, and
the text of the failure beneath it when there is one.
-/

namespace VectorBridge

/-- What kind of failure an error is. -/
inductive ErrorKind where
  | notConnected
  | notFound
  | unsupportedOperator
  | dimensionMismatch
  | dimensionUnknown
  | invalidInput
  | limitExceeded
  | backend
  deriving DecidableEq, Repr, Inhabited

namespace ErrorKind

/-- The kind's name in messages and answers. -/
def name : ErrorKind → String
  | notConnected => "not_connected"
  | notFound => "not_found"
  | unsupportedOperator => "unsupported_operator"
  | dimensionMismatch => "dimension_mismatch"
  | dimensionUnknown => "dimension_unknown"
  | invalidInput => "invalid_input"
  | limitExceeded => "limit_exceeded"
  | backend => "backend"

/-- Every kind. -/
def all : List ErrorKind :=
  [notConnected, notFound, unsupportedOperator, dimensionMismatch, dimensionUnknown,
    invalidInput, limitExceeded, backend]

/-- The kind of a name. -/
def ofName? (s : String) : Option ErrorKind := all.find? fun k => k.name = s

end ErrorKind

/-- A failure as callers see it. -/
structure Error where
  kind : ErrorKind
  message : Option String
  /-- The text of the underlying failure. -/
  source : Option String
  deriving DecidableEq, Repr, Inhabited

namespace Error

/-- An error of a kind with a message. -/
def of (kind : ErrorKind) (message : String) : Error := ⟨kind, some message, none⟩

/-- The kind, then the message. -/
def display (e : Error) : String :=
  match e.message with
  | some m => e.kind.name ++ ": " ++ m
  | none => e.kind.name

/-- Whether something that was looked up does not exist. -/
def isNotFound (e : Error) : Bool := e.kind = .notFound

def notConnected : Error := of .notConnected "adapter is not connected"

def notFound (what : String) : Error := of .notFound s!"{what} not found"

def unsupportedOperator (message : String) : Error := of .unsupportedOperator message

def dimensionMismatch (expected actual : Nat) : Error :=
  of .dimensionMismatch s!"expected {expected}, got {actual}"

def dimensionUnknown (collection : String) : Error :=
  of .dimensionUnknown s!"vector dimension of collection '{collection}' could not be resolved"

def invalidInput (message : String) : Error := of .invalidInput message

def limitExceeded (message : String) : Error := of .limitExceeded message

def backend (message : String) : Error := of .backend message

/-- A failure of the backend, put into context. -/
def fromBackend (context source : String) : Error :=
  ⟨.backend, some s!"{context}: {source}", some source⟩

end Error

/-- A computation that may fail. -/
abbrev Result (α : Type) : Type := Except Error α

/-- A computation on a state that may fail. What it did to the state before
failing stays done. -/
abbrev Action (σ α : Type) : Type := ExceptT Error (StateM σ) α

end VectorBridge
