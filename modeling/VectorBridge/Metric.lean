import VectorBridge.Json.Decode
import VectorBridge.Text.Search
/-!
# Distance metrics

The metrics a collection may be built with, and the distances and
similarities they stand for. Sums run from left to right in binary32 and
start from negative zero; a surplus component of the longer vector is
ignored.
-/

namespace VectorBridge

/-- A vector of binary32 components. -/
abbrev Embedding : Type := List Float32

namespace Embedding

/-- Whether two embeddings have the same bits throughout. -/
def identical : Embedding → Embedding → Bool
  | [], [] => true
  | x :: xs, y :: ys => Binary32.identical x y && identical xs ys
  | _, _ => false

/-- A list of numbers. -/
def ofJson? : Json → Option Embedding := Json.listOf? Json.float32?

def toJson (v : Embedding) : Json := .arr (v.map Json.ofFloat32)

/-- The numbers of a list; other elements are left out. -/
def ofNumbers (elems : List Json) : Embedding :=
  elems.filterMap fun j => j.num?.map fun n => Binary32.narrow n.toFloat

/-- The sum of components, from left to right. -/
def sum (v : Embedding) : Float32 := v.foldl (· + ·) (Binary32.ofParts true 0)

/-- The inner product. -/
def dot (a b : Embedding) : Float32 := sum (List.zipWith (· * ·) a b)

/-- The sum of squared differences. -/
def squaredDistance (a b : Embedding) : Float32 :=
  sum (List.zipWith (fun x y => (x - y) * (x - y)) a b)

/-- The cosine of the angle between two vectors, zero when one is zero. -/
def cosine (a b : Embedding) : Float32 :=
  let normA := (dot a a).sqrt
  let normB := (dot b b).sqrt
  if Binary32.magnitude normA = 0 ∨ Binary32.magnitude normB = 0 then Binary32.ofParts false 0
  else dot a b / (normA * normB)

end Embedding

/-- How vectors are compared. -/
inductive Metric where
  | cosine
  | euclidean
  | dot
  | unknown
  deriving DecidableEq, Repr, Inhabited

namespace Metric

def name : Metric → String
  | cosine => "cosine"
  | euclidean => "euclidean"
  | dot => "dot"
  | unknown => "unknown"

/-- Every spelling, in ASCII lower case. -/
def spellings : List (String × Metric) :=
  [("cosine", cosine), ("euclidean", euclidean), ("euclid", euclidean), ("l2", euclidean),
    ("dot", dot), ("ip", dot), ("inner_product", dot), ("unknown", unknown)]

/-- The metric of a spelling, of any ASCII case. -/
def parse? (s : String) : Option Metric := Keyed.get? (Text.lower s) spellings

/-- The metric of a spelling with blanks around it; `unknown` when there is
none. -/
def parseLossy (s : String) : Metric := (parse? (Text.trim s)).getD unknown

def toJson (m : Metric) : Json := .str m.name

/-- The metric of an exact name. -/
def ofName? (s : String) : Option Metric :=
  [cosine, euclidean, dot, unknown].find? fun m => m.name = s

def ofJson? (j : Json) : Option Metric := (Json.choice? j).bind ofName?

/-- The binary32 one. -/
def one : Float32 := Binary32.ofParts false 0x3F800000

/-- How far apart two vectors are: smaller is closer. -/
def distance (m : Metric) (a b : Embedding) : Float32 :=
  match m with
  | cosine | unknown => one - Embedding.cosine a b
  | euclidean => (Embedding.squaredDistance a b).sqrt
  | dot => -Embedding.dot a b

/-- How alike two vectors are: larger is closer. -/
def similarity (m : Metric) (a b : Embedding) : Float32 :=
  match m with
  | cosine | unknown => Embedding.cosine a b
  | euclidean => -distance euclidean a b
  | dot => Embedding.dot a b

end Metric

end VectorBridge
