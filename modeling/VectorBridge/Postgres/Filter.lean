import VectorBridge.Filter.Compiler
/-!
# SQL conditions

Filters as SQL over a document column of text and a metadata column of
JSON. Keys and operands travel as numbered parameters, never in the text.
Everything is evaluated by the server; a list is searched by containment.
-/

namespace VectorBridge

namespace Postgres

/-- A bound parameter. -/
inductive SqlParam where
  | text (s : String)
  | float (x : Float)
  | textArray (l : List String)
  | bigint (n : Int)
  | json (j : Json)
  deriving Inhabited

def SqlParam.toJson : SqlParam → Json
  | text s => .obj [("text", .str s)]
  | float x => .obj [("float", .ofFloat x)]
  | textArray l => .obj [("text_array", .arr (l.map .str))]
  | bigint n => .obj [("bigint", .int n)]
  | json j => .obj [("json", j)]

/-- An order comparison. -/
inductive SqlOrdering where
  | gt
  | gte
  | lt
  | lte
  deriving DecidableEq, Repr, Inhabited

namespace SqlOrdering

def symbol : SqlOrdering → String
  | gt => ">"
  | gte => ">="
  | lt => "<"
  | lte => "<="

def ofOperator? : Operator → Option SqlOrdering
  | .gt => some gt
  | .gte => some gte
  | .lt => some lt
  | .lte => some lte
  | _ => none

end SqlOrdering

/-- What is asked of a target. -/
inductive SqlPredicate where
  | textIn (candidates : List String)
  | textNotIn (candidates : List String)
  | textCmp (ordering : SqlOrdering) (bound : String)
  | numericCmp (ordering : SqlOrdering) (bound : Float)
  | jsonIn (candidates : List Json)
  | jsonNotIn (candidates : List Json)
  | contains (needle : Json)
  | notContains (needle : Json)
  deriving Inhabited

/-- A predicate on the document or on a metadata key. -/
structure SqlCondition where
  target : FieldTarget
  predicate : SqlPredicate
  deriving Inhabited

/-- A conjunction of conditions. -/
structure SqlWhere where
  conditions : List SqlCondition
  deriving Inhabited

/-- A delimited identifier: in double quotes, each inner one doubled. -/
def quoteIdentifier (name : String) : String :=
  "\"" ++ String.ofList (name.toList.flatMap fun c => if c = '"' then ['"', '"'] else [c]) ++ "\""

/-! ## Text and parameters -/

/-- Builds text while parameters accumulate. -/
abbrev Rendering : Type → Type := StateM (List SqlParam)

/-- Binds a parameter and gives its placeholder. -/
def bind (p : SqlParam) : Rendering String := fun params =>
  (s!"${params.length + 1}", params ++ [p])

def documentColumn : String := quoteIdentifier "document"

def metadataColumn : String := quoteIdentifier "metadata"

/-- The expressions of a metadata key: its JSON, its text and its type. -/
structure KeyExpressions where
  json : String
  text : String
  type : String

/-- The expressions of a key, which is bound once for all three. -/
def keyExpressions (key : String) : Rendering KeyExpressions := do
  let k ← bind (.text key)
  pure { json := s!"({metadataColumn} -> {k})"
         text := s!"({metadataColumn} ->> {k})"
         type := s!"jsonb_typeof({metadataColumn} -> {k})" }

/-- Substring of a text expression; only a string can be one. -/
def substring (expression : String) (needle : Json) : Rendering String :=
  match needle with
  | .str s => do
    let p ← bind (.text s)
    pure s!"strpos({expression}, {p}) > 0"
  | _ => pure "false"

/-- Substring of a text, or containment in a list. -/
def renderContains (target : FieldTarget) (needle : Json) : Rendering String :=
  match target with
  | .document => substring documentColumn needle
  | .metadata key => do
    let e ← keyExpressions key
    let inText ← substring e.text needle
    let element ← bind (.json needle)
    pure <| s!"CASE {e.type} WHEN 'string' THEN {inText} " ++
      s!"WHEN 'array' THEN {e.json} @> {element} ELSE false END"

/-- Containment of some candidate. -/
def renderJsonIn (key : String) (candidates : List Json) : Rendering String := do
  let e ← keyExpressions key
  let p ← bind (.json (.arr candidates))
  pure <| s!"EXISTS (SELECT 1 FROM jsonb_array_elements({p}) AS candidate(value) " ++
    s!"WHERE {e.json} @> candidate.value)"

/-- The text of a condition. Text membership is made for the document only,
JSON membership and numeric order for metadata only; elsewhere they are
constants. -/
def SqlCondition.render (c : SqlCondition) : Rendering String :=
  match c.predicate, c.target with
  | .textIn l, .document => do
    let p ← bind (.textArray l)
    pure s!"{documentColumn} = ANY({p})"
  | .textNotIn l, .document => do
    let p ← bind (.textArray l)
    pure s!"NOT COALESCE({documentColumn} = ANY({p}), false)"
  | .textIn _, .metadata _ => pure "false"
  | .textNotIn _, .metadata _ => pure "true"
  | .textCmp o s, .document => do
    let p ← bind (.text s)
    pure s!"{documentColumn} {o.symbol} {p}"
  | .textCmp o s, .metadata key => do
    let e ← keyExpressions key
    let p ← bind (.text s)
    pure s!"(CASE WHEN {e.type} = 'string' THEN {e.text} END) {o.symbol} {p}"
  | .numericCmp _ _, .document => pure "false"
  | .numericCmp o x, .metadata key => do
    let e ← keyExpressions key
    let p ← bind (.float x)
    pure <| s!"(CASE WHEN {e.type} = 'number' THEN {e.text}::double precision END) " ++
      s!"{o.symbol} {p}"
  | .jsonIn l, .metadata key => renderJsonIn key l
  | .jsonNotIn l, .metadata key => do
    let inList ← renderJsonIn key l
    pure s!"NOT {inList}"
  | .jsonIn _, .document => pure "false"
  | .jsonNotIn _, .document => pure "true"
  | .contains needle, target => renderContains target needle
  | .notContains needle, target => do
    let found ← renderContains target needle
    pure s!"NOT COALESCE({found}, false)"

/-- The texts of some conditions, each in parentheses. -/
def renderAll : List SqlCondition → Rendering (List String)
  | [] => pure []
  | c :: cs => do
    let first ← c.render
    let rest ← renderAll cs
    pure (s!"({first})" :: rest)

namespace SqlWhere

def isEmpty (w : SqlWhere) : Bool := w.conditions.isEmpty

/-- The text of the conjunction, after the parameters bound so far. -/
def render (w : SqlWhere) : Rendering String :=
  if w.isEmpty then pure "TRUE"
  else do pure (Text.join " AND " (← renderAll w.conditions))

/-- The text and the parameters, after those bound so far. -/
def toJson (w : SqlWhere) (bound : List SqlParam) : Json :=
  let (sql, params) := w.render bound
  .ofFields [("sql", .str sql), ("empty", .bool w.isEmpty),
    ("params", .arr (params.map SqlParam.toJson))]

end SqlWhere

/-! ## Compiling -/

/-- The condition of a clause. -/
def lower (c : Clause) : Result SqlCondition :=
  let ok (p : SqlPredicate) : Result SqlCondition := .ok ⟨c.target, p⟩
  match c.operator, c.target with
  | .eq, .document => ok (.textIn c.value.str?.toList)
  | .ne, .document => ok (.textNotIn c.value.str?.toList)
  | .isIn, .document => ok (.textIn (c.list.filterMap Json.str?))
  | .notIn, .document => ok (.textNotIn (c.list.filterMap Json.str?))
  | .eq, .metadata _ => ok (.jsonIn [c.value])
  | .ne, .metadata _ => ok (.jsonNotIn [c.value])
  | .isIn, .metadata _ => ok (.jsonIn c.list)
  | .notIn, .metadata _ => ok (.jsonNotIn c.list)
  | .contains, _ => ok (.contains c.value)
  | .notContains, _ => ok (.notContains c.value)
  | operator, target =>
    match SqlOrdering.ofOperator? operator with
    | none => .error (.unsupportedOperator "not an ordering operator")
    | some o =>
      match c.value, target with
      | .num n, .document => .error <| .unsupportedOperator
        s!"the document column is text and cannot be compared with {n.text}"
      | .num n, .metadata _ => ok (.numericCmp o n.toFloat)
      | .str s, _ => ok (.textCmp o s)
      | other, _ => .error <| .unsupportedOperator
        s!"cannot order field '{c.field}' by {other.text}"

/-- The compiler to SQL conditions. -/
def filterCompiler : FilterCompiler SqlCondition SqlWhere where
  capabilities := .allServerSide
  lower := lower
  combine := SqlWhere.mk

end Postgres

end VectorBridge
