import VectorBridge.Text.Shown
import VectorBridge.Weaviate.Server
/-!
# A Weaviate server in memory

Classes by name, each with its objects in the order they were first
written. A property that is missing or null only differs from everything;
of a list, some element has to compare.
-/

namespace VectorBridge

namespace Weaviate

/-! ## Where-filters -/

/-- The values of a property: a list's elements, or the property itself. -/
def values : Json → List Json
  | .arr elems => elems
  | v => [v]

/-- Whether a value is among the candidates of an operand. -/
def isCandidate (operand v : Json) : Bool := (values operand).any fun c => v.looseEq c

/-- Whether a property that is there satisfies a comparison. -/
def Comparison.holds (c : Comparison) (operand property : Json) : Bool :=
  let some_ (p : Json → Bool) : Bool := (values property).any p
  let order (v : Json) : Option Ordering := v.compare? operand
  match c with
  | equal => some_ fun v => v.looseEq operand
  | notEqual => !some_ fun v => v.looseEq operand
  | greaterThan => some_ fun v => order v == some .gt
  | greaterThanEqual => some_ fun v => order v == some .gt || order v == some .eq
  | lessThan => some_ fun v => order v == some .lt
  | lessThanEqual => some_ fun v => order v == some .lt || order v == some .eq
  | containsAny => some_ (isCandidate operand)

/-- Whether a property, which may be missing, satisfies a comparison. -/
def Comparison.admits (c : Comparison) (operand : Json) (property : Option Json) : Bool :=
  match property with
  | none | some .null => c = notEqual
  | some v => c.holds operand v

mutual

/-- Whether properties satisfy a where-filter. -/
def Where.holds (properties : Metadata) : Where → Bool
  | .property path comparison value =>
    comparison.admits value.toJson (Keyed.get? path properties)
  | .all operands => Where.allHold properties operands

/-- Whether properties satisfy every filter of a list. -/
def Where.allHold (properties : Metadata) : List Where → Bool
  | [] => true
  | w :: rest => Where.holds properties w && Where.allHold properties rest

end

/-- Whether properties satisfy a filter, if there is one. -/
def passes (filter : Option Where) (properties : Metadata) : Bool :=
  filter.all fun w => w.holds properties

/-! ## The server -/

/-- A class and its objects, oldest first. -/
structure Stored where
  definition : Class
  objects : List Object
  deriving Inhabited

/-- The state of a server. -/
structure Memory where
  classes : Keyed String Stored
  deriving Inhabited

/-- Replaces the object of the same id, or adds one at the end. -/
def place (object : Object) : List Object → List Object
  | [] => [object]
  | o :: rest => if o.id = object.id then object :: rest else o :: place object rest

/-- Adds the names that are not there yet. -/
def addNames (names : List String) (new : List String) : List String :=
  new.foldl (fun l n => if l.contains n then l else l ++ [n]) names

namespace Stored

/-- Writes an object; its properties are noted. -/
def write (s : Stored) (o : Object) : Stored :=
  { definition :=
      { s.definition with
        properties := addNames s.definition.properties (Keyed.keys o.properties) }
    objects := place o s.objects }

/-- The objects that satisfy a filter. -/
def passing (s : Stored) (filter : Option Where) : List Object :=
  s.objects.filter fun o => passes filter o.properties

/-- The distance of a vector from a query; the Euclidean one is squared. -/
def distance (s : Stored) (query v : Embedding) : Float32 :=
  match s.definition.metric with
  | .euclidean => Metric.euclidean.distance query v * Metric.euclidean.distance query v
  | .dot => Metric.dot.distance query v
  | .cosine | .unknown => Metric.cosine.distance query v

/-- The nearest objects to a vector. -/
def nearest (s : Stored) (v : Embedding) (limit : Nat) (filter : Option Where) :
    List (Object × Float32) :=
  let scored := (s.passing filter).filterMap fun o => o.vector.map fun e => (o, s.distance v e)
  Ranking.distance.top (·.2) limit scored

end Stored

namespace Memory

/-- A server without classes. -/
def empty : Memory := ⟨[]⟩

/-- The class of a name. -/
def find? (m : Memory) (name : String) : Except TransportError Stored :=
  match Keyed.get? name m.classes with
  | some s => .ok s
  | none => .error (.missing s!"class '{name}'")

/-- Reads a class. -/
def reading {α : Type} (name : String) (f : Stored → α) : Call Memory α :=
  Call.read fun m => (m.find? name).map f

/-- Changes a class. -/
def changing (name : String) (f : Stored → Stored) : Call Memory Unit := fun m =>
  match m.find? name with
  | .error e => (.error e, m)
  | .ok s => (.ok (), ⟨Keyed.insert name (f s) m.classes⟩)

/-- Creates a class. -/
def create (name : String) (metric : Metric) : Call Memory Unit := fun m =>
  if Keyed.hasKey name m.classes then
    (.error (.status 422 s!"class name {Text.showQuoted name} already exists"), m)
  else (.ok (), ⟨Keyed.insert name ⟨⟨name, [], metric⟩, []⟩ m.classes⟩)

instance : Server Memory where
  ready := pure ()
  classes := Call.read fun m => .ok (Keyed.keys m.classes)
  create := create
  describe := fun name => reading name (·.definition)
  drop := fun name m => (.ok (), ⟨Keyed.erase name m.classes⟩)
  put := fun name objects => changing name fun s => objects.foldl Stored.write s
  get := fun name id => reading name fun s => s.objects.find? fun o => o.id = id
  delete := fun name id => changing name fun s =>
    { s with objects := s.objects.filter fun o => o.id ≠ id }
  deleteWhere := fun name filter => changing name fun s =>
    { s with objects := s.objects.filter fun o => !filter.holds o.properties }
  list := fun c filter offset limit => reading c.name fun s =>
    ((s.passing filter).drop offset).take limit
  count := fun name => reading name fun s => s.objects.length
  near := fun c v limit filter => reading c.name fun s => s.nearest v limit filter
  rounds := fun m => Keyed.total (fun s => s.objects.length) m.classes + 2

end Memory

end Weaviate

end VectorBridge
