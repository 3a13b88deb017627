import VectorBridge.Error
import VectorBridge.Filter.Operator
import VectorBridge.Json.Printer
/-!
# Filters

A filter is a conjunction of clauses; a clause compares one field of an
item with an operand. The field `document` is the item's document, every
other one a metadata key.
-/

namespace VectorBridge

/-- The field name that stands for an item's document. -/
def documentField : String := "document"

/-- What a clause looks at. -/
inductive FieldTarget where
  | document
  | metadata (key : String)
  deriving DecidableEq, Repr, Inhabited

/-- One comparison of a filter. -/
structure Clause where
  field : String
  operator : Operator
  value : Json
  deriving Inhabited

namespace Clause

/-- What the clause looks at. -/
def target (c : Clause) : FieldTarget :=
  if c.field = documentField then .document else .metadata c.field

/-- Whether the clause looks at the document. -/
def onDocument (c : Clause) : Bool := c.field = documentField

/-- The operand's elements, when it is a list. -/
def list (c : Clause) : List Json :=
  match c.value with
  | .arr elems => elems
  | _ => []

/-- Whether a value is a string, number or truth value. -/
def isScalar : Json → Bool
  | .str _ | .num _ | .bool _ => true
  | _ => false

/-- Whether a value has an order: a string or a number. -/
def isOrdered : Json → Bool
  | .str _ | .num _ => true
  | _ => false

/-- Whether the operand suits the operator: a list of scalars for the
membership tests, a string or number for order, else a scalar. -/
def operandOk (c : Clause) : Bool :=
  if c.operator.takesList then
    match c.value with
    | .arr elems => elems.all isScalar
    | _ => false
  else if c.operator.isRange then isOrdered c.value
  else isScalar c.value

/-- Refuses an empty field name, then an unsuitable operand. -/
def validate (c : Clause) : Result Unit :=
  if c.field.isEmpty then .error (.invalidInput "filter field must not be empty")
  else if c.operandOk then .ok ()
  else .error <| .invalidInput
    s!"invalid value {c.value.text} for operator '{c.operator.name}' on field '{c.field}'"

def toJson (c : Clause) : Json :=
  .ofFields [("field", .str c.field), ("operator", c.operator.toJson), ("value", c.value)]

def ofJson? (j : Json) : Option Clause := do
  let r ← Json.Record.ofJson? ["field", "operator", "value"] j
  let field ← r.required "field" Json.str?
  let operator ← r.required "operator" Operator.ofJson?
  let value ← r.required "value" fun v => some v.normalize
  pure { field, operator, value }

end Clause

/-- A conjunction of clauses. -/
structure Filter where
  clauses : List Clause
  deriving Inhabited

namespace Filter

/-- The filter that every item passes. -/
def empty : Filter := ⟨[]⟩

def isEmpty (f : Filter) : Bool := f.clauses.isEmpty

/-- The first failure of a list of checks. -/
def firstError : List (Result Unit) → Result Unit
  | [] => .ok ()
  | .ok () :: rest => firstError rest
  | .error e :: _ => .error e

/-- The first invalid clause's error. -/
def validate (f : Filter) : Result Unit := firstError (f.clauses.map Clause.validate)

def toJson (f : Filter) : Json := .arr (f.clauses.map Clause.toJson)

def ofJson? (j : Json) : Option Filter := (Json.listOf? Clause.ofJson? j).map Filter.mk

end Filter

end VectorBridge
