import VectorBridge.Filter.Compiler
/-!
# Qdrant filters

A filter has conditions that must hold, that must not, and of which one
should. A condition tests one payload field, whose list elements count one
by one, or is a filter itself. Numbers are compared as ranges, so `5` and
`5.0` are one value; everything is evaluated by the server.
-/

namespace VectorBridge

namespace Qdrant

/-- Bounds on a number. -/
structure Range where
  gt : Option Float
  gte : Option Float
  lt : Option Float
  lte : Option Float
  deriving Inhabited

/-- No bounds. -/
def Range.all : Range := ⟨none, none, none, none⟩

/-- A test of a string or truth value. -/
inductive Match where
  | keyword (s : String)
  | boolean (b : Bool)
  | text (s : String)
  | keywords (l : List String)
  deriving DecidableEq, Repr, Inhabited

/-- A condition on a payload. -/
inductive Condition where
  | field (key : String) (test : Option Match) (range : Option Range)
  | nested (must mustNot should : List Condition)
  deriving Inhabited

/-- A filter on payloads. -/
structure PointFilter where
  must : List Condition
  mustNot : List Condition
  should : List Condition
  deriving Inhabited

/-- The condition of a clause, and whether it has to hold or to fail. -/
inductive Demand where
  | must (c : Condition)
  | mustNot (c : Condition)
  deriving Inhabited

/-! ## As JSON -/

/-- The object of the fields that are there. -/
def objectOf (fields : List (String × Option Json)) : Json :=
  .ofFields (fields.filterMap fun (k, v) => v.map fun v => (k, v))

def Range.toJson (r : Range) : Json :=
  objectOf [("gt", r.gt.map .ofFloat), ("gte", r.gte.map .ofFloat), ("lt", r.lt.map .ofFloat),
    ("lte", r.lte.map .ofFloat)]

def Match.toJson : Match → Json
  | keyword s => .obj [("keyword", .str s)]
  | boolean b => .obj [("boolean", .bool b)]
  | text s => .obj [("text", .str s)]
  | keywords l => .obj [("keywords", .arr (l.map .str))]

/-- The three parts of a filter. -/
def partsJson (must mustNot should : List Json) : Json :=
  .ofFields [("must", .arr must), ("must_not", .arr mustNot), ("should", .arr should)]

mutual

def Condition.toJson : Condition → Json
  | .field key test range =>
    objectOf [("key", some (.str key)), ("match", test.map Match.toJson),
      ("range", range.map Range.toJson)]
  | .nested must mustNot should =>
    .obj [("filter", partsJson (Condition.listToJson must) (Condition.listToJson mustNot)
      (Condition.listToJson should))]

def Condition.listToJson : List Condition → List Json
  | [] => []
  | c :: rest => Condition.toJson c :: Condition.listToJson rest

end

def PointFilter.toJson (f : PointFilter) : Json :=
  partsJson (f.must.map Condition.toJson) (f.mustNot.map Condition.toJson)
    (f.should.map Condition.toJson)

def Demand.toJson : Demand → Json
  | must c => .obj [("must", c.toJson)]
  | mustNot c => .obj [("must_not", c.toJson)]

/-! ## Compiling -/

/-- The number of a value, as a binary64. -/
def number? (j : Json) : Option Float := j.num?.map Number.toFloat

/-- What is said of a value that is no scalar. -/
def unmatchable (key : String) (value : Json) : Error :=
  .unsupportedOperator s!"Qdrant cannot match field '{key}' against {value.text}"

/-- The field equals a scalar. -/
def equals (key : String) (value : Json) : Result Condition :=
  match value with
  | .str s => .ok (.field key (some (.keyword s)) none)
  | .bool b => .ok (.field key (some (.boolean b)) none)
  | .num n =>
    .ok (.field key none (some { Range.all with gte := some n.toFloat, lte := some n.toFloat }))
  | _ => .error (unmatchable key value)

/-- The field lies on one side of a number. -/
def ordered (c : Clause) : Result Condition :=
  match number? c.value with
  | none => .error <| .unsupportedOperator
    s!"Qdrant cannot order field '{c.field}' by non-numeric value {c.value.text}"
  | some bound =>
    let range := match c.operator with
      | .gt => { Range.all with gt := some bound }
      | .gte => { Range.all with gte := some bound }
      | .lt => { Range.all with lt := some bound }
      | _ => { Range.all with lte := some bound }
    .ok (.field c.field none (some range))

/-- Equality with each of some values; the first failure wins. -/
def equalsEach (key : String) : List Json → Result (List Condition)
  | [] => .ok []
  | v :: vs =>
    match equals key v with
    | .error e => .error e
    | .ok c =>
      match equalsEach key vs with
      | .error e => .error e
      | .ok cs => .ok (c :: cs)

/-- The field is one of the candidates: one keyword list for the strings,
one equality for each other value. An empty keyword list matches nothing,
like an empty list of candidates. -/
def anyOf (key : String) (values : List Json) : Result Condition :=
  let strings := values.filterMap Json.str?
  let keywords : List Condition :=
    if !strings.isEmpty || values.isEmpty then [.field key (some (.keywords strings)) none]
    else []
  match equalsEach key (values.filter fun v => v.str?.isNone) with
  | .error e => .error e
  | .ok others =>
    match keywords ++ others with
    | [c] => .ok c
    | cs => .ok (.nested [] [] cs)

/-- The field contains a string, or equals another scalar. -/
def contains (key : String) (value : Json) : Result Condition :=
  match value with
  | .str s => .ok (.field key (some (.text s)) none)
  | other => equals key other

/-- The demand of a clause. -/
def lower (c : Clause) : Result Demand :=
  match c.operator with
  | .eq => (equals c.field c.value).map .must
  | .ne => (equals c.field c.value).map .mustNot
  | .gt | .gte | .lt | .lte => (ordered c).map .must
  | .isIn => (anyOf c.field c.list).map .must
  | .notIn => (anyOf c.field c.list).map .mustNot
  | .contains => (contains c.field c.value).map .must
  | .notContains => (contains c.field c.value).map .mustNot

/-- A filter of demands. -/
def combine (demands : List Demand) : PointFilter where
  must := demands.filterMap fun
    | .must c => some c
    | .mustNot _ => none
  mustNot := demands.filterMap fun
    | .must _ => none
    | .mustNot c => some c
  should := []

/-- The compiler to point filters. -/
def filterCompiler : FilterCompiler Demand PointFilter where
  capabilities := .allServerSide
  lower := lower
  combine := combine

end Qdrant

end VectorBridge
