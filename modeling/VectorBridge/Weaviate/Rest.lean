import VectorBridge.Http.Client
import VectorBridge.Settings
import VectorBridge.Weaviate.Server
/-!
# Weaviate over HTTP

The questions of a Weaviate server as requests: classes and single objects
by path, batches as lists, and reading, counting and searching as GraphQL
queries.
-/

namespace VectorBridge

namespace Weaviate

open Http (Client)

/-- A Weaviate server behind a client. -/
structure Rest where
  client : Client
  deriving Inhabited

/-! ## Classes -/

/-- The types of properties that are read back. References and nested
objects would need selections of their own. -/
def scalarTypes : List String :=
  ["text", "string", "int", "number", "boolean", "date", "uuid", "text[]", "string[]", "int[]",
    "number[]", "boolean[]", "date[]", "uuid[]"]

/-- A property as described. -/
structure PropertyInfo where
  name : String
  dataTypes : List String

/-- Whether the property is read back. -/
def PropertyInfo.isScalar (p : PropertyInfo) : Bool :=
  p.dataTypes.head?.any scalarTypes.contains

def PropertyInfo.ofJson? (j : Json) : Option PropertyInfo := do
  let r ← Json.Record.ofJson? ["name", "dataType"] j
  let name ← r.required "name" Json.str?
  pure ⟨name, ← r.withDefault "dataType" [] (Json.listOf? Json.str?)⟩

/-- The distance in the settings of a vector index. -/
def indexDistance? (j : Json) : Option (Option String) := do
  let r ← Json.Record.ofJson? ["distance"] j
  r.withDefault "distance" none (Json.optionOf? Json.str?)

/-- A class out of its description. -/
def Class.ofJson? (j : Json) : Option Class := do
  let r ← Json.Record.ofJson? ["class", "properties", "vectorIndexConfig"] j
  let name ← r.required "class" Json.str?
  let properties ← r.withDefault "properties" [] (Json.listOf? PropertyInfo.ofJson?)
  let distance ← r.withDefault "vectorIndexConfig" none indexDistance?
  pure { name
         properties := (properties.filter PropertyInfo.isScalar).map (·.name)
         metric := (distance.map metricOfDistance).getD .unknown }

/-- The classes of a schema. -/
def schemaClasses? (j : Json) : Option (List Class) := do
  let r ← Json.Record.ofJson? ["classes"] j
  r.withDefault "classes" [] (Json.listOf? Class.ofJson?)

/-- The body that creates a class. -/
def createBody (name : String) (metric : Metric) : Json :=
  .ofFields [
    ("class", .str name),
    ("vectorizer", .str "none"),
    ("vectorIndexConfig", .obj [("distance", .str (distanceName metric))]),
    ("properties", .arr [.ofFields
      [("name", .str documentProperty), ("dataType", .arr [.str "text"])]])]

/-! ## Objects -/

/-- An object asked for by its id. -/
def Object.ofJson? (j : Json) : Option Object := do
  let r ← Json.Record.ofJson? ["id", "properties", "vector"] j
  let id ← r.required "id" fun j => j.str?.bind Uuid.parse?
  let properties ← r.withDefault "properties" [] Json.fields?
  let vector ← r.withDefault "vector" none (Json.optionOf? Embedding.ofJson?)
  pure { id, properties, vector }

/-- An object to be written. -/
def Object.toJson (name : String) (o : Object) : Json :=
  .ofFields [
    ("class", .str name),
    ("id", .str o.id.text),
    ("properties", .obj o.properties),
    ("vector", (o.vector.map Embedding.toJson).getD .null)]

/-- The body that writes objects. -/
def batchBody (name : String) (objects : List Object) : Json :=
  .ofFields [("objects", .arr (objects.map (Object.toJson name)))]

/-- What the answer to a batch says went wrong with one object: the message
of its first error. -/
def batchFailure? (answer : Json) : Option String :=
  match (((answer.field "result").field "errors").field "error") with
  | .arr (first :: _) => (first.field "message").str?
  | _ => none

/-- What is answered to the objects of a batch. -/
def batchAnswers? (j : Json) : Option (List Json) := j.normalize.arr?

/-- The answer to a batch: the first message found is the failure. -/
def batchOutcome (answers : List Json) : Except TransportError Unit :=
  match answers.findSome? batchFailure? with
  | some message => .error (.api 0 message)
  | none => .ok ()

/-- The answer to a removal by filter. -/
def removalOutcome (name : String) (answer : Json) : Except TransportError Unit :=
  let failed := (((answer.field "results").field "failed").u64?).getD 0
  if 0 < failed then
    .error (.malformed s!"batch delete on '{name}' failed for {failed} objects")
  else .ok ()

/-! ## Queries -/

/-- An argument of a query. -/
def argument (name value : String) : String := name ++ ": " ++ value

/-- What a query selects of every object. -/
def selection (c : Class) (extras : String) : String :=
  Text.join " " (c.properties ++ ["_additional \x7b " ++ extras ++ " \x7d"])

/-- A query for the objects of a class. -/
def getQuery (name : String) (arguments : List String) (selection : String) : String :=
  "\x7b Get \x7b " ++ name ++ "(" ++ Text.join ", " arguments ++ ") \x7b " ++ selection ++
    " \x7d \x7d \x7d"

/-- A query for the number of objects of a class. -/
def countQuery (name : String) : String :=
  "\x7b Aggregate \x7b " ++ name ++ " \x7b meta \x7b count \x7d \x7d \x7d \x7d"

/-- The condition of a query. -/
def whereArgument (filter : Option Where) : List String :=
  filter.toList.map fun w => argument "where" w.toGraphQL

/-- The query for a listing. -/
def listQuery (c : Class) (filter : Option Where) (offset limit : Nat) : String :=
  getQuery c.name
    ([argument "limit" (toString limit), argument "offset" (toString offset)] ++
      whereArgument filter)
    (selection c "id vector")

/-- The query for the nearest objects. -/
def nearQuery (c : Class) (v : Embedding) (limit : Nat) (filter : Option Where) : String :=
  getQuery c.name
    ([argument "nearVector" ("\x7bvector: " ++ v.toJson.text ++ "\x7d"),
        argument "limit" (toString limit)] ++ whereArgument filter)
    (selection c "id vector distance")

/-- The answer to a query: its data, or the message of its first error. -/
structure QueryAnswer where
  data : Json
  errors : List String

def QueryAnswer.ofJson? (j : Json) : Option QueryAnswer := do
  let message? (e : Json) : Option String := do
    (← Json.Record.ofJson? ["message"] e).required "message" Json.str?
  let r ← Json.Record.ofJson? ["data", "errors"] j
  let data ← r.withDefault "data" .null some
  let errors ← r.withDefault "errors" [] (Json.listOf? message?)
  pure { data := data.normalize, errors }

/-- The data of an answer without errors. -/
def QueryAnswer.accept (a : QueryAnswer) : Except TransportError Json :=
  match a.errors with
  | message :: _ => .error (.api 0 message)
  | [] => .ok a.data

/-- The rows of a class in a query's data. -/
def rowsOf (name : String) (data : Json) : Except TransportError (List Json) :=
  match (data.field "Get").field name with
  | .arr rows => .ok rows
  | .null => .ok []
  | _ => .error (.malformed "Get result is not a list")

/-- The number of objects in a query's data. -/
def countOf (name : String) (data : Json) : Except TransportError Nat :=
  let counted := match (data.field "Aggregate").field name with
    | .arr (first :: _) => ((first.field "meta").field "count").u64?
    | _ => none
  match counted with
  | some n => .ok n
  | none => .error (.malformed "Aggregate result without a count")

/-- The object of a row, and its distance when there is one. Properties an
object does not have come as null. -/
def objectOf (row : Json) : Except TransportError (Object × Option Float32) :=
  match row with
  | .obj fields =>
    match Keyed.get? "_additional" fields with
    | none => .error (.malformed "Get row without _additional")
    | some extras =>
      match (extras.field "id").str?.bind Uuid.parse? with
      | none => .error (.malformed "Get row without an object id")
      | some id =>
        let properties := (Keyed.erase "_additional" fields).filter fun e => !e.2.isNull
        let vector := (extras.field "vector").arr?.map Embedding.ofNumbers
        let distance := (extras.field "distance").num?.map fun n => Binary32.narrow n.toFloat
        .ok (⟨id, properties, vector⟩, distance)
  | _ => .error (.malformed "Get row is not an object")

/-- The object of a row that has to have a distance. -/
def hitOf (row : Json) : Except TransportError (Object × Float32) := do
  match ← objectOf row with
  | (o, some distance) => pure (o, distance)
  | (_, none) => throw (.malformed "nearVector hit without distance")

namespace Rest

/-- The server of some settings. -/
def ofSettings? (s : WeaviateSettings) (peer : Http.Peer) : Except TransportError Rest := do
  pure ⟨← Client.ofUrl? s.url s.apiKey peer⟩

/-- Acts on the client. -/
def onClient {α : Type} (c : Call Client α) : Call Rest α := fun r =>
  match c r.client with
  | (a, client) => (a, ⟨client⟩)

/-- A call that finds something or nothing. -/
def optional {α : Type} (c : Call Client α) : Call Rest (Option α) := fun r =>
  match c r.client with
  | (.ok a, client) => (.ok (some a), ⟨client⟩)
  | (.error e, client) => (if e.isNotFound then .ok none else .error e, ⟨client⟩)

/-- Asks a query. -/
def ask (query : String) : Call Rest Json := do
  let answer ← onClient
    (Client.post "v1/graphql" (.ofFields [("query", .str query)]) QueryAnswer.ofJson?)
  Call.ofResult answer.accept

/-- Asks for the rows of a class. -/
def rows (name query : String) : Call Rest (List Json) := do
  Call.ofResult (rowsOf name (← ask query))

/-- Describes a class. -/
def describe (name : String) : Call Rest Class :=
  (onClient (Client.get s!"v1/schema/{name}" Class.ofJson?)).mapError fun e =>
    if e.isNotFound then .missing s!"class '{name}'" else e

/-- Drops a class that is there: servers accept to drop one that is not. -/
def drop (name : String) : Call Rest Unit := do
  let _ ← describe name
  onClient (Client.delete s!"v1/schema/{name}" Client.anything)

/-- Inserts or replaces objects. -/
def put (name : String) (objects : List Object) : Call Rest Unit := do
  let body := batchBody name objects
  Call.ofResult (batchOutcome (← onClient (Client.post "v1/batch/objects" body batchAnswers?)))

/-- Removes the objects that satisfy a filter. -/
def deleteWhere (name : String) (filter : Where) : Call Rest Unit := do
  let body := Json.ofFields
    [("match", .ofFields [("class", .str name), ("where", filter.toJson)]),
      ("output", .str "minimal")]
  let answer ← onClient (Client.deleteWith "v1/batch/objects" body (some ∘ Json.normalize))
  Call.ofResult (removalOutcome name answer)

instance : Server Rest where
  ready := onClient (Client.get "v1/.well-known/ready" Client.anything)
  classes := do
    pure ((← onClient (Client.get "v1/schema" schemaClasses?)).map (·.name))
  create := fun name metric =>
    onClient (Client.post "v1/schema" (createBody name metric) Client.anything)
  describe := describe
  drop := drop
  put := put
  get := fun name id =>
    optional (Client.get s!"v1/objects/{name}/{id.text}?include=vector" Object.ofJson?)
  delete := fun name id => do
    let _ ← optional (Client.delete s!"v1/objects/{name}/{id.text}" Client.anything)
    pure ()
  deleteWhere := deleteWhere
  list := fun c filter offset limit => do
    let found ← rows c.name (listQuery c filter offset limit)
    Call.ofResult (found.mapM fun row => (objectOf row).map (·.1))
  count := fun name => do Call.ofResult (countOf name (← ask (countQuery name)))
  near := fun c v limit filter => do
    let found ← rows c.name (nearQuery c v limit filter)
    Call.ofResult (found.mapM hitOf)
  rounds := fun r => r.client.peer.replies.length + 2

end Rest

end Weaviate

end VectorBridge
