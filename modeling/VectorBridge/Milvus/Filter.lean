import VectorBridge.Filter.Compiler
/-!
# Milvus expressions

A boolean expression is one line of text in which fields, operators and
literals stand side by side. Fields of the schema are bare names; a
metadata key is a bare name when it looks like one and hides no schema
field, else a quoted access to the dynamic field. Strings are quoted with
backslash and quote escaped. Negations and substring tests are left to the
client.
-/

namespace VectorBridge

namespace Milvus

def documentFieldName : String := "document"

def vectorFieldName : String := "embedding"

def primaryFieldName : String := "id"

/-- The names of schema fields. -/
def schemaFields : List String := [primaryFieldName, documentFieldName, vectorFieldName]

/-- A field of the schema, or a metadata key. -/
inductive Field where
  | schema (name : String)
  | dynamic (key : String)
  deriving DecidableEq, Repr, Inhabited

/-- A string in quotes; backslashes and quotes are escaped. -/
def quote (s : String) : String :=
  let escape (c : Char) : List Char :=
    if c = '\\' then ['\\', '\\'] else if c = '"' then ['\\', '"'] else [c]
  "\"" ++ String.ofList (s.toList.flatMap escape) ++ "\""

/-- Whether a text is a letter or underscore followed by letters, digits and
underscores. -/
def isIdentifier (s : String) : Bool :=
  match s.toList with
  | [] => false
  | c :: cs =>
    (Text.isLetter c || c == '_') &&
      cs.all fun c => Text.isLetter c || Text.isDigit c || c == '_'

namespace Field

def name : Field → String
  | schema n => n
  | dynamic k => k

/-- Whether the field is a metadata key. -/
def isDynamic : Field → Bool
  | schema _ => false
  | dynamic _ => true

def text : Field → String
  | schema n => n
  | dynamic k =>
    if isIdentifier k && !(schemaFields.contains k) then k
    else "$meta[" ++ quote k ++ "]"

end Field

/-- A value that can be written in an expression. -/
inductive Literal where
  | str (s : String)
  | num (n : Number)
  | bool (b : Bool)
  | list (elems : List Literal)
  deriving Inhabited

namespace Literal

mutual

/-- The literal of a value; null and objects have none. -/
def ofJson? : Json → Option Literal
  | .str s => some (str s)
  | .num n => some (num n)
  | .bool b => some (bool b)
  | .arr elems => (ofList? elems).map list
  | .null | .obj _ => none

def ofList? : List Json → Option (List Literal)
  | [] => some []
  | j :: rest => do
    let l ← ofJson? j
    let ls ← ofList? rest
    some (l :: ls)

end

mutual

/-- The value of a literal. -/
def toJson : Literal → Json
  | str s => .str s
  | num n => .num n
  | bool b => .bool b
  | list elems => .arr (listToJson elems)

def listToJson : List Literal → List Json
  | [] => []
  | l :: rest => toJson l :: listToJson rest

end

mutual

def text : Literal → String
  | str s => quote s
  | num n => n.text
  | bool true => "true"
  | bool false => "false"
  | list elems => "[" ++ listText elems ++ "]"

/-- Elements separated by a comma and a blank. -/
def listText : List Literal → String
  | [] => ""
  | [l] => text l
  | l :: rest => text l ++ ", " ++ listText rest

end

end Literal

/-- A comparison; the two matching ones also look at the elements of a
list. -/
inductive Op where
  | eq
  | matchesOne
  | gt
  | gte
  | lt
  | lte
  | isIn
  | matchesAny
  deriving DecidableEq, Repr, Inhabited

namespace Op

/-- The comparison of an operator on a field. -/
def ofOperator? (o : Operator) (f : Field) : Option Op :=
  match o, f with
  | .eq, .dynamic _ => some matchesOne
  | .eq, .schema _ => some eq
  | .gt, _ => some gt
  | .gte, _ => some gte
  | .lt, _ => some lt
  | .lte, _ => some lte
  | .isIn, .dynamic _ => some matchesAny
  | .isIn, .schema _ => some isIn
  | .ne, _ | .notIn, _ | .contains, _ | .notContains, _ => none

/-- The comparison's name. -/
def name : Op → String
  | eq => "Eq"
  | matchesOne => "Matches"
  | gt => "Gt"
  | gte => "Gte"
  | lt => "Lt"
  | lte => "Lte"
  | isIn => "In"
  | matchesAny => "MatchesAny"

def token : Op → String
  | eq | matchesOne => "=="
  | gt => ">"
  | gte => ">="
  | lt => "<"
  | lte => "<="
  | isIn | matchesAny => "in"

end Op

/-- One comparison of an expression. -/
structure Term where
  field : Field
  op : Op
  value : Literal
  deriving Inhabited

/-- The term's text. -/
def Term.text (t : Term) : String :=
  let f := t.field.text
  let v := t.value.text
  let plain := f ++ " " ++ t.op.token ++ " " ++ v
  match t.op with
  | .matchesOne => "(" ++ plain ++ " || json_contains(" ++ f ++ ", " ++ v ++ "))"
  | .matchesAny => "(" ++ plain ++ " || json_contains_any(" ++ f ++ ", " ++ v ++ "))"
  | _ => plain

def Term.toJson (t : Term) : Json :=
  .ofFields [("field", .str t.field.name), ("dynamic", .bool t.field.isDynamic),
    ("op", .str t.op.name), ("token", .str t.op.token), ("value", t.value.toJson)]

/-- A conjunction of terms. -/
structure Expr where
  terms : List Term
  deriving Inhabited

namespace Expr

def isEmpty (e : Expr) : Bool := e.terms.isEmpty

def text (e : Expr) : String := Text.join " && " (e.terms.map Term.text)

def toJson (e : Expr) : Json :=
  .ofFields [("expr", .str e.text), ("empty", .bool e.isEmpty),
    ("terms", .arr (e.terms.map Term.toJson))]

/-- The primary key is one of some literals. -/
def primaryIn (primaryField : String) (ids : List Literal) : Expr :=
  ⟨[⟨.schema primaryField, .isIn, .list ids⟩]⟩

end Expr

/-- The field of a clause. -/
def fieldOf (c : Clause) : Field :=
  match c.target with
  | .document => .schema documentFieldName
  | .metadata key => .dynamic key

/-- The term of a clause. -/
def lower (c : Clause) : Result Term :=
  match Op.ofOperator? c.operator (fieldOf c) with
  | none => .error <| .unsupportedOperator
    s!"Milvus expressions have no '{c.operator.name}' operator"
  | some op =>
    match Literal.ofJson? c.value with
    | none => .error (.unsupportedOperator s!"{c.value.text} has no Milvus literal form")
    | some value => .ok ⟨fieldOf c, op, value⟩

/-- The operators left to the client, on metadata and document alike. -/
def residualOperators : List Operator := [.ne, .notIn, .contains, .notContains]

/-- The compiler to expressions. -/
def filterCompiler : FilterCompiler Term Expr where
  capabilities :=
    residualOperators.foldl (fun t o => (t.setMetadata o false).setDocument o false)
      .allServerSide
  lower := lower
  combine := Expr.mk

end Milvus

end VectorBridge
