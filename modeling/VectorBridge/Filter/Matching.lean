import VectorBridge.Filter.Clause
import VectorBridge.Item
/-!
# Filter semantics

When an item passes a filter. A field that is missing passes exactly the
negated operators. Equality and membership look at the elements of a list,
and at the field itself otherwise; order compares numbers with numbers and
strings with strings; `contains` is a substring test on strings and
membership on lists.
-/

namespace VectorBridge

namespace Filter

/-- Whether the value, or some element of a list, satisfies `p`. -/
def anyElement (p : Json → Bool) : Json → Bool
  | .arr elems => elems.any p
  | j => p j

/-- Whether the value, or some element of a list, is among the candidates. -/
def inList (field : Json) (candidates : List Json) : Bool :=
  anyElement (fun v => candidates.any fun c => v.looseEq c) field

/-- Substring of a string, or element of a list. -/
def holds (field needle : Json) : Bool :=
  match field, needle with
  | .str haystack, .str needle => Text.contains haystack needle
  | .arr elems, needle => elems.any fun v => v.looseEq needle
  | _, _ => false

end Filter

namespace Clause

/-- The item's value of the clause's field. -/
def fieldOf (c : Clause) (item : Item) : Option Json :=
  match c.target with
  | .document => item.document.map Json.str
  | .metadata key => Keyed.get? key item.metadata

/-- Whether a present field satisfies the clause. -/
def admits (c : Clause) (field : Json) : Bool :=
  match c.operator with
  | .eq => Filter.anyElement (fun v => v.looseEq c.value) field
  | .ne => !Filter.anyElement (fun v => v.looseEq c.value) field
  | .gt => field.compare? c.value == some .gt
  | .gte => field.compare? c.value == some .gt || field.compare? c.value == some .eq
  | .lt => field.compare? c.value == some .lt
  | .lte => field.compare? c.value == some .lt || field.compare? c.value == some .eq
  | .isIn => Filter.inList field c.list
  | .notIn => !Filter.inList field c.list
  | .contains => Filter.holds field c.value
  | .notContains => !Filter.holds field c.value

/-- Whether the item satisfies the clause. -/
def accepts (c : Clause) (item : Item) : Bool :=
  match c.fieldOf item with
  | some field => c.admits field
  | none => c.operator.isNegated

end Clause

namespace Filter

/-- Whether the item satisfies every clause. -/
def accepts (f : Filter) (item : Item) : Bool := f.clauses.all fun c => c.accepts item

end Filter

end VectorBridge
