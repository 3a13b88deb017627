import VectorBridge.Embedder
/-!
# Sample items

Two small collections to try adapters on: one of uniform items, and one
whose fields differ in shape: scalars, lists, integers and fractions, and
items that lack some of them. Vectors are hashes of the documents.
-/

namespace VectorBridge

namespace Samples

/-- The width of the sample vectors. -/
def dimension : Nat := 4

/-- A sample item, with a vector of its document. -/
def item (id document : String) (metadata : List (String × Json)) : Item :=
  { id
    document := some document
    metadata := Keyed.ofList metadata
    embedding := some (Embedder.hashed dimension document) }

/-- The number of uniform items. -/
def referenceSize : Nat := 37

def statuses : List String := ["active", "inactive", "pending"]

def categories : List String := ["news", "blog", "paper", "note"]

/-- The entry of a list at an index that goes round. -/
def cyclic (l : List String) (i : Nat) : Json := .ofString? l[i % l.length]?

/-- A number in two digits. -/
def twoDigits (i : Nat) : String :=
  String.ofList [Nat.digitChar (i / 10 % 10), Nat.digitChar (i % 10)]

/-- The uniform items. -/
def reference : List Item := (List.range referenceSize).map fun i =>
  item s!"doc_{twoDigits i}" s!"reference document number {i}"
    [("status", cyclic statuses i), ("score", .nat (i * 7 % 10)),
      ("category", cyclic categories i)]

/-- A list of words. -/
def words (l : List String) : Json := .arr (l.map .str)

/-- The fraction of `n` halves. -/
def halves (n : Nat) : Json := .num (.flt (Binary64.ofInt n / Binary64.ofInt 2))

/-- The items of differing shape. -/
def shaped : List Item :=
  [item "s0" "field notes on rust"
      [("status", .str "active"), ("tags", words ["rust", "db"]), ("n", .nat 5)],
    item "s1" "a go service"
      [("status", .str "inactive"), ("tags", words ["go"]), ("n", halves 10)],
    item "s2" "unlabelled rust snippet" [("tags", words ["rust"]), ("n", .nat 2)],
    item "s3" "release notes"
      [("status", .str "active"), ("tags", words ["python"]), ("n", halves 15)],
    item "s4" "an untagged draft" [("n", .nat 10)],
    item "s5" "pending review notes"
      [("status", .str "pending"), ("tags", words ["db", "go"]), ("n", halves 1)],
    item "s6" "schema migration" [("status", .str "active"), ("tags", words ["db"])],
    item "s7" "benchmarks in go and rust"
      [("status", .str "inactive"), ("tags", words ["go", "rust"]), ("n", .nat 3)]]

/-- The item `g` followed by a number. -/
def countedItem (i : Nat) : Item :=
  { id := s!"g{i}"
    document := some s!"text {i}"
    metadata := [("even", .bool (i % 2 == 0)), ("n", .nat i)]
    embedding := some [Embedder.float32OfNat i, Embedder.float32OfNat 1] }

/-- The first counted items, as many as asked for. -/
def counted (n : Nat) : List Item := (List.range n).map countedItem

end Samples

end VectorBridge
