import VectorBridge.Item
import VectorBridge.Postgres.Filter
import VectorBridge.Query
import VectorBridge.Transport
/-!
# A PostgreSQL database in memory

Tables by name, each with its rows in the order of their ids. Conditions
are evaluated by the rules of SQL with three truth values folded into two:
a comparison with nothing does not hold, and its guarded negation does.
-/

namespace VectorBridge

namespace Postgres

/-! ## Index operator classes -/

/-- The distance operator of a metric. -/
def distanceOperator : Metric → String
  | .euclidean => "<->"
  | .dot => "<#>"
  | .cosine | .unknown => "<=>"

/-- The operator class of an index for a metric. -/
def operatorClass : Metric → String
  | .euclidean => "vector_l2_ops"
  | .dot => "vector_ip_ops"
  | .cosine | .unknown => "vector_cosine_ops"

/-- The metric of an index definition. -/
def metricOfIndex (definition : String) : Metric :=
  if Text.contains definition "vector_cosine_ops" then .cosine
  else if Text.contains definition "vector_l2_ops" then .euclidean
  else if Text.contains definition "vector_ip_ops" then .dot
  else .unknown

/-! ## Conditions -/

/-- Whether an order is the one asked for. -/
def SqlOrdering.admits (o : SqlOrdering) (order : Option Ordering) : Bool :=
  match o with
  | gt => order == some .gt
  | gte => order == some .gt || order == some .eq
  | lt => order == some .lt
  | lte => order == some .lt || order == some .eq

/-- Containment of a value: numbers are equal across their classes, and a
list contains its elements. -/
def jsonContains (field value : Json) : Bool :=
  match field with
  | .arr elems => elems.any fun e => e.looseEq value
  | v => v.looseEq value

/-- Whether a text contains a text, or a list a value. -/
def containsNeedle (field needle : Json) : Bool :=
  match field, needle with
  | .str text, .str part => Text.contains text part
  | .str _, _ => false
  | .arr elems, v => jsonContains (.arr elems) v
  | _, _ => false

namespace SqlCondition

/-- The value a condition looks at. -/
def valueIn (c : SqlCondition) (item : Item) : Option Json :=
  match c.target with
  | .document => item.document.map .str
  | .metadata key => Keyed.get? key item.metadata

/-- Whether a condition looks at the document. -/
def onDocument (c : SqlCondition) : Bool := c.target = .document

/-- Whether a row satisfies a condition. -/
def holds (c : SqlCondition) (item : Item) : Bool :=
  let value := c.valueIn item
  let textIn (l : List String) : Bool := (value.bind Json.str?).any fun t => l.contains t
  let jsonIn (l : List Json) : Bool := value.any fun v => l.any fun x => jsonContains v x
  match c.predicate with
  | .textIn l => c.onDocument && textIn l
  | .textNotIn l => !c.onDocument || !textIn l
  | .textCmp o bound =>
    (value.bind Json.str?).any fun t => o.admits (some (compareOfLessAndEq t bound))
  | .numericCmp o bound =>
    (value.bind Json.num?).any fun n => o.admits (Binary64.compare? n.toFloat bound)
  | .jsonIn l => !c.onDocument && jsonIn l
  | .jsonNotIn l => c.onDocument || !jsonIn l
  | .contains needle => value.any fun v => containsNeedle v needle
  | .notContains needle => !(value.any fun v => containsNeedle v needle)

end SqlCondition

/-- Whether a row satisfies every condition. -/
def SqlWhere.holds (w : SqlWhere) (item : Item) : Bool := w.conditions.all fun c => c.holds item

/-- Whether a row satisfies the conditions, if there are any. -/
def passes (filter : Option SqlWhere) (item : Item) : Bool := filter.all fun w => w.holds item

/-! ## The database -/

/-- A table and its rows. -/
structure Table where
  width : Nat
  metric : Metric
  rows : Keyed String Item
  deriving Inhabited

/-- The state of a database. -/
structure Memory where
  tables : Keyed String Table
  deriving Inhabited

namespace Table

/-- The rows that pass, in order of their ids. -/
def passing (t : Table) (filter : Option SqlWhere) : List Item :=
  (Keyed.values t.rows).filter fun item => passes filter item

/-- The nearest rows to a vector. -/
def nearest (t : Table) (metric : Metric) (v : Embedding) (limit : Nat)
    (filter : Option SqlWhere) : List Hit :=
  let scored := (t.passing filter).filterMap fun item =>
    item.embedding.map fun e => (⟨item, metric.distance v e⟩ : Hit)
  Ranking.distance.top (·.score) limit scored

/-- The first vector of a width other than the table's. -/
def misfit? (t : Table) (items : List Item) : Option Embedding :=
  (items.filterMap (·.embedding)).find? fun v => v.length ≠ t.width

end Table

namespace Memory

/-- A database without tables. -/
def empty : Memory := ⟨[]⟩

/-- The table of a name. -/
def find? (m : Memory) (name : String) : Except TransportError Table :=
  match Keyed.get? name m.tables with
  | some t => .ok t
  | none => .error (.missing s!"table '{name}'")

/-- Reads a table. -/
def reading {α : Type} (name : String) (f : Table → α) : Call Memory α :=
  Call.read fun m => (m.find? name).map f

/-- Changes a table, or refuses to. -/
def changing (name : String) (f : Table → Except TransportError Table) : Call Memory Unit :=
  fun m =>
    match m.find? name with
    | .error e => (.error e, m)
    | .ok t =>
      match f t with
      | .error e => (.error e, m)
      | .ok t => (.ok (), ⟨Keyed.insert name t m.tables⟩)

/-- The names of the tables. -/
def names : Call Memory (List String) := Call.read fun m => .ok (Keyed.keys m.tables)

/-- Creates a table. -/
def create (name : String) (width : Nat) (metric : Metric) : Call Memory Unit := fun m =>
  if Keyed.hasKey name m.tables then
    (.error (.api 0 s!"relation \"{name}\" already exists"), m)
  else (.ok (), ⟨Keyed.insert name ⟨width, metric, []⟩ m.tables⟩)

/-- Drops a table. -/
def drop (name : String) : Call Memory Unit := fun m =>
  match m.find? name with
  | .error e => (.error e, m)
  | .ok _ => (.ok (), ⟨Keyed.erase name m.tables⟩)

/-- Inserts or replaces rows, all or none. -/
def upsert (name : String) (items : List Item) : Call Memory Unit := changing name fun t =>
  match t.misfit? items with
  | some v => .error (.api 0 s!"expected {t.width} dimensions, not {v.length}")
  | none => .ok { t with rows := items.foldl (fun m item => Keyed.insert item.id item m) t.rows }

/-- The rows of some ids, in order of their ids. -/
def fetch (name : String) (ids : List String) : Call Memory (List Item) :=
  reading name fun t => (Keyed.values t.rows).filter fun item => ids.contains item.id

/-- Removes the rows of some ids. -/
def erase (name : String) (ids : List String) : Call Memory Unit := changing name fun t =>
  .ok { t with rows := ids.foldl (fun m id => Keyed.erase id m) t.rows }

/-- Removes the rows that satisfy some conditions. -/
def eraseWhere (name : String) (filter : SqlWhere) : Call Memory Unit := changing name fun t =>
  .ok { t with rows := t.rows.filter fun e => !filter.holds e.2 }

/-- Number of rows. -/
def count (name : String) : Call Memory Nat := reading name fun t => t.rows.length

end Memory

end Postgres

end VectorBridge
