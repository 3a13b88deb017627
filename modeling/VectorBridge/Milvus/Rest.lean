import VectorBridge.Http.Client
import VectorBridge.Milvus.Server
import VectorBridge.Settings
/-!
# Milvus over HTTP

The questions of a Milvus server as requests. Every answer comes in an
envelope with a code; any code but zero is a failure, and only its wording
tells whether something is missing.
-/

namespace VectorBridge

namespace Milvus

open Http (Client)

/-- A Milvus server behind a client. -/
structure Rest where
  client : Client
  database : Option String
  deriving Inhabited

/-! ## Envelopes -/

/-- What every answer comes in. -/
structure Envelope where
  code : Int
  message : String
  data : Json

def Envelope.ofJson? (j : Json) : Option Envelope := do
  let r ← Json.Record.ofJson? ["code", "message", "data"] j
  let code ← r.required "code" Json.i64?
  let message ← r.withDefault "message" "" Json.str?
  let data ← r.withDefault "data" .null some
  pure { code, message, data := data.normalize }

/-- Whether a message says that something is missing. -/
def isMissing (message : String) : Bool :=
  let m := Text.lower message
  Text.contains m "not found" || Text.contains m "can't find" || Text.contains m "not exist"

/-- What an envelope holds for a reader of values; no data reads as an
object without fields. -/
def Envelope.accept {α : Type} (decode : Json → Option α) (e : Envelope) :
    Except TransportError α :=
  if e.code ≠ 0 then
    .error (if isMissing e.message then .missing e.message else .api e.code e.message)
  else
    match decode (if e.data.isNull then .obj [] else e.data) with
    | some a => .ok a
    | none => .error .undecodable

/-! ## Schemas -/

/-- A setting of a field. -/
structure FieldParameter where
  key : String
  value : Json

/-- A field as described. -/
structure FieldInfo where
  name : String
  dataType : String
  isPrimary : Bool
  parameters : List FieldParameter

/-- An index as described. -/
structure IndexInfo where
  field : String
  metric : Option String

/-- A collection as described. -/
structure Description where
  fields : List FieldInfo
  indexes : List IndexInfo

def FieldParameter.ofJson? (j : Json) : Option FieldParameter := do
  let r ← Json.Record.ofJson? ["key", "value"] j
  pure ⟨← r.required "key" Json.str?, ← r.required "value" some⟩

def FieldInfo.ofJson? (j : Json) : Option FieldInfo := do
  let r ← Json.Record.ofJson? ["name", "type", "primaryKey", "params"] j
  let name ← r.required "name" Json.str?
  let dataType ← r.required "type" Json.str?
  let isPrimary ← r.withDefault "primaryKey" false Json.bool?
  let parameters ← r.withDefault "params" [] (Json.listOf? FieldParameter.ofJson?)
  pure { name, dataType, isPrimary, parameters }

def IndexInfo.ofJson? (j : Json) : Option IndexInfo := do
  let r ← Json.Record.ofJson? ["fieldName", "metricType"] j
  let field ← r.required "fieldName" Json.str?
  pure ⟨field, ← r.withDefault "metricType" none (Json.optionOf? Json.str?)⟩

def Description.ofJson? (j : Json) : Option Description := do
  let r ← Json.Record.ofJson? ["fields", "indexes"] j
  let fields ← r.withDefault "fields" [] (Json.listOf? FieldInfo.ofJson?)
  let indexes ← r.withDefault "indexes" [] (Json.listOf? IndexInfo.ofJson?)
  pure { fields, indexes }

/-- A width, as a number or written out. -/
def width? : Json → Option Nat
  | .num n => (Json.num n).u64?
  | .str s => Text.natUpTo? (Word.span64 - 1) s
  | _ => none

/-- The schema after one more field. -/
def Schema.withField (s : Schema) (f : FieldInfo) : Schema :=
  let s := if f.isPrimary then
      { s with
        primaryField := f.name
        idKind := if Text.lower f.dataType = "int64" then .integer else .nativeString }
    else s
  if Text.lower f.dataType = "floatvector" then
    { s with
      vectorField := f.name
      dimension := (f.parameters.find? fun p => p.key = "dim").bind fun p => width? p.value }
  else s

/-- The schema; of two primary or vector fields the last one counts. -/
def Description.schema (d : Description) : Schema :=
  let s := d.fields.foldl Schema.withField Schema.plain
  let metric := (d.indexes.find? fun i => i.field = s.vectorField).bind (·.metric)
  { s with metric := (metric.map Metric.parseLossy).getD .unknown }

/-! ## Requests -/

/-- The longest text of a field. -/
def maxText : Nat := 65535

/-- The description of a field to be created. -/
def newField (name dataType parameter : String) (value : Nat) (rest : List (String × Json)) :
    Json :=
  .ofFields <|
    [("fieldName", .str name), ("dataType", .str dataType),
      ("elementTypeParams", .obj [(parameter, .nat value)])] ++ rest

/-- The body that creates a collection. -/
def createBody (name : String) (dimension : Nat) (metric : Metric) : Json :=
  .ofFields [
    ("collectionName", .str name),
    ("schema", .ofFields [
      ("autoId", .bool false),
      ("enableDynamicField", .bool true),
      ("fields", .arr [
        newField primaryFieldName "VarChar" "max_length" maxText [("isPrimary", .bool true)],
        newField documentFieldName "VarChar" "max_length" maxText [],
        newField vectorFieldName "FloatVector" "dim" dimension []])]),
    ("indexParams", .arr [.ofFields [
      ("fieldName", .str vectorFieldName),
      ("indexName", .str vectorFieldName),
      ("metricType", .str (metricType metric)),
      ("params", .ofFields [("index_type", .str "IVF_FLAT"), ("nlist", .nat 128)])]])]

/-- A body about a collection. -/
def about (name : String) (rest : List (String × Json)) : Json :=
  .ofFields (("collectionName", .str name) :: rest)

/-- Every field of a row. -/
def everyField : Json := .arr [.str "*"]

/-- The body of a reading. -/
def queryBody (name : String) (filter : Option Expr) (offset limit : Nat) : Json :=
  about name [
    ("filter", .str ((filter.map Expr.text).getD "")),
    ("outputFields", everyField),
    ("offset", .nat offset),
    ("limit", .nat limit)]

/-- The body of a search. -/
def searchBody (name field : String) (v : Embedding) (limit : Nat) (filter : Option Expr) : Json :=
  about name <|
    [("data", .arr [v.toJson]), ("annsField", .str field), ("limit", .nat limit),
      ("outputFields", everyField)] ++
    filter.toList.map fun e => ("filter", .str e.text)

/-! ## Answers -/

/-- The rows of a list; what is no row is left out. -/
def rowsAmong (elems : List Json) : List Row := elems.filterMap Json.obj?

/-- The count in the answer to a counting. -/
def countOf (rows : List Row) : Except TransportError Nat :=
  match (rows.head?.bind (Keyed.get? "count(*)")).bind Json.u64? with
  | some n => .ok n
  | none => .error (.malformed "count query returned no count")

/-- A row found, and its score. -/
def hitOf (row : Row) : Except TransportError (Row × Float32) :=
  match (Keyed.get? "distance" row).bind Json.num? with
  | some n => .ok (Keyed.erase "distance" row, Binary32.narrow n.toFloat)
  | none => .error (.malformed "search hit without distance")

namespace Rest

/-- The server of some settings. -/
def ofSettings? (s : MilvusSettings) (peer : Http.Peer) : Except TransportError Rest := do
  let client ← Client.ofUrl? s.url s.token peer
  pure { client, database := s.database }

/-- The body, with the database when there is one. -/
def addressed (r : Rest) (body : Json) : Json :=
  match r.database, body with
  | some database, .obj fields => .obj (Keyed.insert "dbName" (.str database) fields)
  | _, body => body

/-- Asks, and opens the envelope. -/
def ask {α : Type} (path : String) (body : Json) (decode : Json → Option α) : Call Rest α :=
  fun r =>
    match Client.post ("v2/vectordb/" ++ path) (r.addressed body) Envelope.ofJson? r.client with
    | (.ok envelope, client) => (envelope.accept decode, { r with client })
    | (.error e, client) => (.error e, { r with client })

/-- Searches a collection. -/
def search (name field : String) (v : Embedding) (limit : Nat) (filter : Option Expr) :
    Call Rest (List (Row × Float32)) := do
  let found ← ask "entities/search" (searchBody name field v limit filter) Json.arr?
  Call.ofResult ((rowsAmong found).mapM hitOf)

/-- Counts the rows of a collection. -/
def count (name : String) : Call Rest Nat := do
  let body := about name [("filter", .str ""), ("outputFields", .arr [.str "count(*)"])]
  Call.ofResult (countOf (← ask "entities/query" body (Json.listOf? Json.obj?)))

instance : Server Rest where
  health := ask "collections/list" (.obj []) Client.anything
  names := ask "collections/list" (.obj []) (Json.listOf? Json.str?)
  create := fun name dimension metric =>
    ask "collections/create" (createBody name dimension metric) Client.anything
  describe := fun name => do
    pure (← ask "collections/describe" (about name []) Description.ofJson?).schema
  drop := fun name => ask "collections/drop" (about name []) Client.anything
  upsert := fun name rows =>
    ask "entities/upsert" (about name [("data", .arr (rows.map .obj))]) Client.anything
  query := fun name filter offset limit => do
    pure (rowsAmong (← ask "entities/query" (queryBody name filter offset limit) Json.arr?))
  delete := fun name filter =>
    ask "entities/delete" (about name [("filter", .str filter.text)]) Client.anything
  count := count
  search := search
  rounds := fun r => r.client.peer.replies.length + 2

end Rest

end Milvus

end VectorBridge
