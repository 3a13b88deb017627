import VectorBridge.Item
import VectorBridge.Transport
/-!
# Columnar tables

A table is read and written whole. Every row has a vector, so a row whose
item has none is flagged and holds zeros; a sentinel row keeps a new table
from being empty and is never shown.
-/

namespace VectorBridge

namespace Columnar

/-- The id of the sentinel row. -/
def sentinelId : String := "__sentinel__"

/-- A vector of zeros. -/
def zeros (width : Nat) : Embedding := List.replicate width (Binary32.ofParts false 0)

/-- A row of a table. -/
structure Row where
  id : String
  document : Option String
  metadata : Metadata
  vector : Embedding
  /-- Whether the vector is the item's own. -/
  hasVector : Bool
  deriving Inhabited

namespace Row

/-- The row that keeps a new table from being empty. -/
def sentinel (width : Nat) : Row := ⟨sentinelId, none, [], zeros width, false⟩

/-- Whether the row is the sentinel. -/
def isSentinel (r : Row) : Bool := r.id = sentinelId

/-- The row of an item in a table of a width. -/
def ofItem (width : Nat) (item : Item) : Row :=
  { id := item.id
    document := item.document
    metadata := item.metadata
    vector := item.embedding.getD (zeros width)
    hasVector := item.embedding.isSome }

/-- The item of a row. -/
def toItem (r : Row) : Item :=
  { id := r.id
    document := r.document
    metadata := r.metadata
    embedding := if r.hasVector then some r.vector else none }

end Row

/-- A table. -/
structure Table where
  width : Option Nat
  metric : Metric
  rows : List Row
  deriving Inhabited

/-- Puts a row in place of the last one of its id, when there is one. -/
def replaceLast (row : Row) : List Row → Option (List Row)
  | [] => none
  | r :: rest =>
    match replaceLast row rest with
    | some rest => some (r :: rest)
    | none => if r.id = row.id then some (row :: rest) else none

/-- Replaces the row of the same id, or adds one at the end. -/
def place (rows : List Row) (row : Row) : List Row :=
  (replaceLast row rows).getD (rows ++ [row])

namespace Table

/-- A new table. -/
def new (width : Nat) (metric : Metric) : Table := ⟨some width, metric, [.sentinel width]⟩

/-- The rows that are shown. -/
def visible (t : Table) : List Row := t.rows.filter fun r => !r.isSentinel

/-- The items of the rows that are shown. -/
def items (t : Table) : List Item := t.visible.map Row.toItem

/-- Inserts or replaces rows. -/
def upsert (t : Table) (rows : List Row) : Table := { t with rows := rows.foldl place t.rows }

/-- Removes the rows of some ids, but never the sentinel. -/
def remove (t : Table) (ids : List String) : Table :=
  { t with rows := t.rows.filter fun r => r.isSentinel || !ids.contains r.id }

/-- The width of some vector that is an item's own. -/
def someWidth? (t : Table) : Option Nat :=
  (t.visible.find? fun r => r.hasVector).map fun r => r.vector.length

end Table

/-- The places where tables are kept. -/
class Store (τ : Type) where
  tables : Call τ (List String)
  contains : String → Call τ Bool
  read : String → Call τ Table
  write : String → Table → Call τ Unit
  drop : String → Call τ Unit

/-- Tables in memory, by name. -/
structure Memory where
  tables : Keyed String Table
  deriving Inhabited

namespace Memory

/-- A store without tables. -/
def empty : Memory := ⟨[]⟩

/-- The table of a name. -/
def find? (m : Memory) (name : String) : Except TransportError Table :=
  match Keyed.get? name m.tables with
  | some t => .ok t
  | none => .error (.missing s!"table '{name}'")

instance : Store Memory where
  tables := Call.read fun m => .ok (Keyed.keys m.tables)
  contains := fun name => Call.read fun m => .ok (Keyed.hasKey name m.tables)
  read := fun name => Call.read fun m => m.find? name
  write := fun name t m => (.ok (), ⟨Keyed.insert name t m.tables⟩)
  drop := fun name m =>
    match m.find? name with
    | .ok _ => (.ok (), ⟨Keyed.erase name m.tables⟩)
    | .error e => (.error e, m)

end Memory

end Columnar

end VectorBridge
