import VectorBridge.Item
/-!
# Collections

What a backend tells about one of its collections.
-/

namespace VectorBridge

/-- Distinct strings in ascending order. -/
def sortedSet (l : List String) : List String :=
  Keyed.keys (Keyed.ofList (l.map fun s => (s, ())))

/-- A collection's description. -/
structure Collection where
  name : String
  vectorDimension : Option Nat
  metric : Metric
  itemCount : Nat
  /-- Distinct metadata keys in ascending order. -/
  metadataFields : List String
  deriving Inhabited

namespace Collection

def toJson (c : Collection) : Json :=
  .ofFields [
    ("name", .str c.name),
    ("vector_dimension", (c.vectorDimension.map Json.nat).getD .null),
    ("distance_metric", c.metric.toJson),
    ("item_count", .nat c.itemCount),
    ("metadata_fields", .arr (c.metadataFields.map .str))]

def ofJson? (j : Json) : Option Collection := do
  let r ← Json.Record.ofJson?
    ["name", "vector_dimension", "distance_metric", "item_count", "metadata_fields"] j
  let name ← r.required "name" Json.str?
  let vectorDimension ← r.optional "vector_dimension" Json.u64?
  let metric ← r.required "distance_metric" Metric.ofJson?
  let itemCount ← r.required "item_count" Json.u64?
  let fields ← r.required "metadata_fields" (Json.listOf? Json.str?)
  pure { name, vectorDimension, metric, itemCount, metadataFields := sortedSet fields }

end Collection

end VectorBridge
