import VectorBridge.Error
import VectorBridge.Keyed
/-!
# Vector widths

A collection's vector width comes from a resolver. The usual one keeps
what it learned: it asks the backend for the declared width, then probes a
stored vector, and remembers the answer. A fixed one always says the same,
and a custom one decides by its own rule from its history and both answers.
-/

namespace VectorBridge

/-- A vector width, when it is known. -/
inductive Dimension where
  | known (width : Nat)
  | unknown
  deriving DecidableEq, Repr, Inhabited

namespace Dimension

def ofOption : Option Nat → Dimension
  | some w => known w
  | none => unknown

def toOption : Dimension → Option Nat
  | known w => some w
  | unknown => none

/-- The width, which has to be known. -/
def require (d : Dimension) (collection : String) : Result Nat :=
  match d with
  | known w => .ok w
  | unknown => .error (.dimensionUnknown collection)

/-- Refuses a width other than the known one. -/
def check (d : Dimension) (actual : Nat) : Result Unit :=
  match d with
  | known expected =>
    if expected = actual then .ok () else .error (.dimensionMismatch expected actual)
  | unknown => .ok ()

end Dimension

/-- What a resolver was told or asked. -/
inductive ResolverEvent where
  | recorded (collection : String) (width : Nat)
  | forgotten (collection : String)
  | asked (collection : String)
  deriving DecidableEq, Repr

/-- Where an adapter gets vector widths from. -/
inductive DimensionResolver where
  /-- Remembers every width it learned. -/
  | cached (widths : Keyed String Nat)
  /-- Always says the same. -/
  | fixed (dimension : Dimension)
  /-- Decides from its history, latest first, and from the declared and the
  probed width. -/
  | custom (history : List ResolverEvent)
      (decide : List ResolverEvent → String → Result (Option Nat) → Result (Option Nat) →
        Result Dimension)

namespace DimensionResolver

/-- The resolver every adapter starts with. -/
def default : DimensionResolver := cached []

/-- Tells the resolver a width. -/
def record (r : DimensionResolver) (collection : String) (width : Nat) : DimensionResolver :=
  match r with
  | cached widths => cached (Keyed.insert collection width widths)
  | fixed d => fixed d
  | custom history decide => custom (.recorded collection width :: history) decide

/-- Tells the resolver that a collection is gone. -/
def forget (r : DimensionResolver) (collection : String) : DimensionResolver :=
  match r with
  | cached widths => cached (Keyed.erase collection widths)
  | fixed d => fixed d
  | custom history decide => custom (.forgotten collection :: history) decide

/-- The remembered width of a collection. -/
def cachedWidth? (r : DimensionResolver) (collection : String) : Option Nat :=
  match r with
  | cached widths => Keyed.get? collection widths
  | _ => none

/-- Resolves a width. The backend is asked only when the answer is not
known, and probed only when it declares none. -/
def resolve {m : Type → Type} [Monad m] (r : DimensionResolver) (collection : String)
    (declared probed : m (Result (Option Nat))) : m (Result Dimension × DimensionResolver) :=
  match r with
  | fixed d => pure (.ok d, r)
  | cached widths =>
    match Keyed.get? collection widths with
    | some w => pure (.ok (.known w), r)
    | none => do
      let learn (answer : Result (Option Nat)) : Result Dimension × DimensionResolver :=
        match answer with
        | .error e => (.error e, r)
        | .ok none => (.ok .unknown, r)
        | .ok (some w) => (.ok (.known w), r.record collection w)
      match ← declared with
      | .ok none => return learn (← probed)
      | answer => return learn answer
  | custom history decide => do
    let d ← declared
    let p ← probed
    pure (decide history collection d p, custom (.asked collection :: history) decide)

end DimensionResolver

end VectorBridge
