import VectorBridge.Filter.Capability
import VectorBridge.Filter.Matching
/-!
# Compiling filters

A filter splits into a native fragment, which the backend evaluates, and a
residual, which the client evaluates on what the backend returns. Clause
by clause the capability table decides, and both parts keep the order of
the clauses.
-/

namespace VectorBridge

/-- A filter split between backend and client. -/
structure CompiledFilter (Fragment : Type) where
  native : Option Fragment
  residual : Filter

namespace CompiledFilter

variable {Fragment : Type}

/-- No filter at all. -/
def empty : CompiledFilter Fragment := ⟨none, Filter.empty⟩

/-- Whether nothing is left to the client. -/
def isComplete (c : CompiledFilter Fragment) : Bool := c.residual.isEmpty

/-- The items that pass the residual. -/
def postFilter (c : CompiledFilter Fragment) (items : List Item) : List Item :=
  items.filter c.residual.accepts

end CompiledFilter

/-- How a backend's fragments are made: what it evaluates, the condition of
one clause, and the conjunction of conditions. -/
structure FilterCompiler (Condition Fragment : Type) where
  capabilities : Capabilities
  lower : Clause → Result Condition
  combine : List Condition → Fragment

namespace FilterCompiler

variable {Condition Fragment : Type}

/-- The clauses the backend evaluates. -/
def serverSide (K : FilterCompiler Condition Fragment) (f : Filter) : List Clause :=
  f.clauses.filter K.capabilities.isServerSide

/-- The clauses left to the client. -/
def clientSide (K : FilterCompiler Condition Fragment) (f : Filter) : List Clause :=
  f.clauses.filter fun c => !K.capabilities.isServerSide c

/-- The conditions of a list of clauses; the first failure wins. -/
def lowerAll (K : FilterCompiler Condition Fragment) : List Clause → Result (List Condition)
  | [] => .ok []
  | c :: cs =>
    match K.lower c with
    | .error e => .error e
    | .ok d =>
      match lowerAll K cs with
      | .error e => .error e
      | .ok ds => .ok (d :: ds)

/-- Splits a filter, after validating every clause. -/
def compile (K : FilterCompiler Condition Fragment) (f : Filter) :
    Result (CompiledFilter Fragment) :=
  match f.validate with
  | .error e => .error e
  | .ok () =>
    match K.lowerAll (K.serverSide f) with
    | .error e => .error e
    | .ok conditions =>
      .ok { native := if conditions.isEmpty then none else some (K.combine conditions)
            residual := ⟨K.clientSide f⟩ }

/-- Splits a filter if there is one. -/
def compile? (K : FilterCompiler Condition Fragment) :
    Option Filter → Result (CompiledFilter Fragment)
  | some f => K.compile f
  | none => .ok .empty

end FilterCompiler

end VectorBridge
