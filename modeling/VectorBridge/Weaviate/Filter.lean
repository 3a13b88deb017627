import VectorBridge.Filter.Compiler
/-!
# Weaviate where-filters

A where-filter compares one property, or joins filters with `And`. An
operand is typed: a text, number or truth value, or a list of one of them.
The negated membership test and substring tests are left to the client.
-/

namespace VectorBridge

namespace Weaviate

/-- A typed operand. -/
inductive Operand where
  | text (s : String)
  | number (x : Float)
  | boolean (b : Bool)
  | textArray (l : List String)
  | numberArray (l : List Float)
  | booleanArray (l : List Bool)
  deriving Inhabited

/-- The number of a value, as a binary64. -/
def number? (j : Json) : Option Float := j.num?.map Number.toFloat

namespace Operand

/-- The operand of a value. The first element gives a list its type, and an
empty list is one of texts; null, objects and mixed lists have none. -/
def ofJson? : Json → Option Operand
  | .str s => some (text s)
  | .num n => some (number n.toFloat)
  | .bool b => some (boolean b)
  | .arr elems =>
    match elems with
    | .num _ :: _ => (elems.mapM number?).map numberArray
    | .bool _ :: _ => (elems.mapM Json.bool?).map booleanArray
    | _ => (elems.mapM Json.str?).map textArray
  | .null | .obj _ => none

/-- The name under which a filter holds the operand. -/
def key : Operand → String
  | text _ => "valueText"
  | number _ => "valueNumber"
  | boolean _ => "valueBoolean"
  | textArray _ => "valueTextArray"
  | numberArray _ => "valueNumberArray"
  | booleanArray _ => "valueBooleanArray"

def toJson : Operand → Json
  | text s => .str s
  | number x => .ofFloat x
  | boolean b => .bool b
  | textArray l => .arr (l.map .str)
  | numberArray l => .arr (l.map .ofFloat)
  | booleanArray l => .arr (l.map .bool)

end Operand

/-- A comparison of a property. -/
inductive Comparison where
  | equal
  | notEqual
  | greaterThan
  | greaterThanEqual
  | lessThan
  | lessThanEqual
  | containsAny
  deriving DecidableEq, Repr, Inhabited

def Comparison.name : Comparison → String
  | equal => "Equal"
  | notEqual => "NotEqual"
  | greaterThan => "GreaterThan"
  | greaterThanEqual => "GreaterThanEqual"
  | lessThan => "LessThan"
  | lessThanEqual => "LessThanEqual"
  | containsAny => "ContainsAny"

/-- A where-filter. -/
inductive Where where
  | property (path : String) (comparison : Comparison) (value : Operand)
  | all (operands : List Where)
  deriving Inhabited

namespace Where

/-- The operands of a conjunction; another filter is its own. -/
def conjuncts : Where → List Where
  | all operands => operands
  | w => [w]

/-- The conjunction of two filters, flattened. -/
def and (a b : Where) : Where := all (a.conjuncts ++ b.conjuncts)

mutual

/-- The filter in a request's body. -/
def toJson : Where → Json
  | property path comparison value =>
    .ofFields [("path", .arr [.str path]), ("operator", .str comparison.name),
      (value.key, value.toJson)]
  | all operands => .obj [("operands", .arr (listToJson operands)), ("operator", .str "And")]

def listToJson : List Where → List Json
  | [] => []
  | w :: rest => toJson w :: listToJson rest

end

mutual

/-- The filter inside a GraphQL query, where keys stand bare. -/
def toGraphQL : Where → String
  | property path comparison value =>
    "\x7bpath: " ++ (Json.arr [.str path]).text ++ ", operator: " ++ comparison.name ++ ", " ++
      value.key ++ ": " ++ value.toJson.text ++ "\x7d"
  | all operands => "\x7boperator: And, operands: [" ++ listToGraphQL operands ++ "]\x7d"

def listToGraphQL : List Where → String
  | [] => ""
  | [w] => toGraphQL w
  | w :: rest => toGraphQL w ++ ", " ++ listToGraphQL rest

end

/-- The filter in both of its written forms. -/
def renderings (w : Where) : Json := .ofFields [("json", w.toJson), ("graphql", .str w.toGraphQL)]

end Where

def documentProperty : String := "document"

/-- The property of a clause. -/
def propertyOf (c : Clause) : String :=
  match c.target with
  | .document => documentProperty
  | .metadata key => key

/-- The comparison of an operator. -/
def comparison? : Operator → Option Comparison
  | .eq => some .equal
  | .ne => some .notEqual
  | .gt => some .greaterThan
  | .gte => some .greaterThanEqual
  | .lt => some .lessThan
  | .lte => some .lessThanEqual
  | .isIn => some .containsAny
  | .notIn | .contains | .notContains => none

/-- The where-filter of a clause. -/
def lower (c : Clause) : Result Where :=
  match Operand.ofJson? c.value with
  | none => .error (.unsupportedOperator s!"{c.value.text} has no Weaviate operand form")
  | some value =>
    match comparison? c.operator with
    | some comparison => .ok (.property (propertyOf c) comparison value)
    | none => .error (.unsupportedOperator s!"Weaviate has no filter for '{c.operator.name}'")

/-- The conjunction of filters; a single one stands for itself. -/
def combine : List Where → Where
  | [] => .all []
  | w :: ws => ws.foldl Where.and w

/-- The operators left to the client, on metadata and document alike. -/
def residualOperators : List Operator := [.notIn, .contains, .notContains]

/-- The compiler to where-filters. -/
def filterCompiler : FilterCompiler Where Where where
  capabilities :=
    residualOperators.foldl (fun t o => (t.setMetadata o false).setDocument o false)
      .allServerSide
  lower := lower
  combine := combine

end Weaviate

end VectorBridge
