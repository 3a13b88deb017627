import VectorBridge.Identifier
import VectorBridge.Milvus.Filter
import VectorBridge.Query
import VectorBridge.Transport
/-!
# Milvus servers

What is asked of a Milvus server. A collection has a schema that names the
field of its keys and the field of its vectors; a row is a map from fields
to values. A server reads no further than a window of rows.
-/

namespace VectorBridge

namespace Milvus

/-- No read goes beyond this many rows. -/
def window : Nat := 16384

/-- A collection's schema. -/
structure Schema where
  primaryField : String
  idKind : IdKind
  vectorField : String
  dimension : Option Nat
  metric : Metric
  deriving DecidableEq, Repr, Inhabited

/-- The schema of a new collection, before its width and metric are set. -/
def Schema.plain : Schema := ⟨primaryFieldName, .nativeString, vectorFieldName, none, .unknown⟩

/-- The name of a metric. -/
def metricType : Metric → String
  | .euclidean => "L2"
  | .dot => "IP"
  | .cosine | .unknown => "COSINE"

/-- Whether small or large scores are better under a metric. -/
def ranking : Metric → Ranking
  | .euclidean => .distance
  | .cosine | .dot | .unknown => .similarity

/-- A stored row. -/
abbrev Row : Type := Metadata

/-- The questions a Milvus server answers. -/
class Server (τ : Type) where
  health : Call τ Unit
  names : Call τ (List String)
  create : String → Nat → Metric → Call τ Unit
  describe : String → Call τ Schema
  drop : String → Call τ Unit
  upsert : String → List Row → Call τ Unit
  /-- Rows that satisfy an expression, from an offset on, up to a limit. -/
  query : String → Option Expr → Nat → Nat → Call τ (List Row)
  delete : String → Expr → Call τ Unit
  count : String → Call τ Nat
  /-- The nearest rows to a vector by the vectors of a field. -/
  search : String → String → Embedding → Nat → Option Expr → Call τ (List (Row × Float32))
  /-- More pages than a listing can have. -/
  rounds : τ → Nat

/-- The vector in a field of a row. -/
def vectorOf? (row : Row) (field : String) : Option Embedding :=
  ((Keyed.get? field row).bind Json.arr?).map Embedding.ofNumbers

end Milvus

end VectorBridge
