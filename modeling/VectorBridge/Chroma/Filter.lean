import VectorBridge.Filter.Compiler
/-!
# Chroma where-maps

A where-map is JSON: a field name with one comparison, or a combinator
with a list of where-maps. Scalar comparisons do not look into lists, so
equality and membership pair a scalar comparison with tests of a list's
elements. Substring tests and the document are left to the client.
-/

namespace VectorBridge

namespace Chroma

/-- The where-map name of an operator. -/
def whereOperator? : Operator → Option String
  | .eq => some "$eq"
  | .ne => some "$ne"
  | .gt => some "$gt"
  | .gte => some "$gte"
  | .lt => some "$lt"
  | .lte => some "$lte"
  | .isIn => some "$in"
  | .notIn => some "$nin"
  | .contains | .notContains => none

/-- One comparison of one field. -/
def predicate (key op : String) (value : Json) : Json := .obj [(key, .obj [(op, value)])]

/-- Conditions under a combinator; a single one stands for itself. -/
def join (combinator : String) : List Json → Json
  | [c] => c
  | cs => .obj [(combinator, .arr cs)]

/-- The where-map of a clause. -/
def lower (c : Clause) : Result Json :=
  match whereOperator? c.operator with
  | none => .error <| .unsupportedOperator
    s!"Chroma has no where operator for '{c.operator.name}'"
  | some op =>
    if c.operator.isRange && c.value.num?.isNone then
      .error <| .unsupportedOperator
        s!"Chroma orders numbers only, field '{c.field}' was compared with {c.value.text}"
    else
      let scalar := predicate c.field op c.value
      .ok <| match c.operator with
        | .eq => join "$or" [scalar, predicate c.field "$contains" c.value]
        | .ne => join "$and" [scalar, predicate c.field "$not_contains" c.value]
        | .isIn => join "$or" (scalar :: c.list.map (predicate c.field "$contains"))
        | .notIn => join "$and" (scalar :: c.list.map (predicate c.field "$not_contains"))
        | _ => scalar

/-- The compiler to where-maps. -/
def filterCompiler : FilterCompiler Json Json where
  capabilities :=
    ((Capabilities.allServerSide.setMetadata .contains false).setMetadata .notContains
      false).setDocumentAll false
  lower := lower
  combine := join "$and"

end Chroma

end VectorBridge
