import VectorBridge.Text.Upper
import VectorBridge.Transport
import VectorBridge.Uuid.Basic
import VectorBridge.Query
import VectorBridge.Weaviate.Filter
/-!
# Weaviate servers

What is asked of a Weaviate server. Classes hold objects, objects have a
UUID and properties. The name of a class begins with a capital, so a
collection's name is capitalized first.
-/

namespace VectorBridge

namespace Weaviate

/-- The class of a collection. -/
def className (collection : String) : String := Text.capitalize collection

/-- A class as the server describes it. -/
structure Class where
  name : String
  /-- The properties seen so far. -/
  properties : List String
  metric : Metric
  deriving DecidableEq, Repr, Inhabited

/-- A stored object. -/
structure Object where
  id : Uuid
  properties : Metadata
  vector : Option Embedding
  deriving Inhabited

/-- The distance of a metric. -/
def distanceName : Metric → String
  | .euclidean => "l2-squared"
  | .dot => "dot"
  | .cosine | .unknown => "cosine"

/-- The metric of a distance. -/
def metricOfDistance (name : String) : Metric :=
  if name = "l2-squared" then .euclidean else Metric.parseLossy name

/-- The questions a Weaviate server answers. -/
class Server (τ : Type) where
  ready : Call τ Unit
  classes : Call τ (List String)
  create : String → Metric → Call τ Unit
  describe : String → Call τ Class
  drop : String → Call τ Unit
  put : String → List Object → Call τ Unit
  get : String → Uuid → Call τ (Option Object)
  delete : String → Uuid → Call τ Unit
  deleteWhere : String → Where → Call τ Unit
  /-- Objects that satisfy a filter, from an offset on, up to a limit. -/
  list : Class → Option Where → Nat → Nat → Call τ (List Object)
  count : String → Call τ Nat
  near : Class → Embedding → Nat → Option Where → Call τ (List (Object × Float32))
  /-- More pages than a listing can have. -/
  rounds : τ → Nat

end Weaviate

end VectorBridge
