import VectorBridge.Json.Decode
/-!
# Families of backends

The six families of vector databases, by name.
-/

namespace VectorBridge

/-- A family of vector databases. -/
inductive BackendKind where
  | chroma
  | qdrant
  | postgres
  | milvus
  | weaviate
  | columnar
  deriving DecidableEq, Repr, Inhabited

namespace BackendKind

def name : BackendKind → String
  | chroma => "chroma"
  | qdrant => "qdrant"
  | postgres => "pgvector"
  | milvus => "milvus"
  | weaviate => "weaviate"
  | columnar => "columnar"

/-- Every family. -/
def all : List BackendKind := [chroma, qdrant, postgres, milvus, weaviate, columnar]

/-- The family of a name. -/
def ofName? (s : String) : Option BackendKind := all.find? fun k => k.name = s

def toJson (k : BackendKind) : Json := .str k.name

def ofJson? (j : Json) : Option BackendKind := (Json.choice? j).bind ofName?

end BackendKind

end VectorBridge
