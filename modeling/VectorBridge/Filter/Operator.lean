import VectorBridge.Json.Decode
/-!
# Filter operators

The ten comparisons a filter clause may make.
-/

namespace VectorBridge

/-- A comparison of a field with an operand. -/
inductive Operator where
  | eq
  | ne
  | gt
  | gte
  | lt
  | lte
  | isIn
  | notIn
  | contains
  | notContains
  deriving DecidableEq, Repr, Inhabited

namespace Operator

/-- Every operator, in table order. -/
def all : List Operator := [eq, ne, gt, gte, lt, lte, isIn, notIn, contains, notContains]

def name : Operator → String
  | eq => "eq"
  | ne => "ne"
  | gt => "gt"
  | gte => "gte"
  | lt => "lt"
  | lte => "lte"
  | isIn => "in"
  | notIn => "not_in"
  | contains => "contains"
  | notContains => "not_contains"

/-- The operator as shown to people. -/
def symbol : Operator → String
  | eq => "="
  | ne => "!="
  | gt => ">"
  | gte => ">="
  | lt => "<"
  | lte => "<="
  | isIn => "in"
  | notIn => "not in"
  | contains => "contains"
  | notContains => "not contains"

/-- Whether the operator compares by order. -/
def isRange : Operator → Bool
  | gt | gte | lt | lte => true
  | _ => false

/-- Whether the operand is a list of candidates. -/
def takesList : Operator → Bool
  | isIn | notIn => true
  | _ => false

/-- Whether the operator is the negation of another one. -/
def isNegated : Operator → Bool
  | ne | notIn | notContains => true
  | _ => false

/-- The operator of a name. -/
def ofName? (s : String) : Option Operator := all.find? fun o => o.name = s

def toJson (o : Operator) : Json := .str o.name

def ofJson? (j : Json) : Option Operator := (Json.choice? j).bind ofName?

end Operator

end VectorBridge
