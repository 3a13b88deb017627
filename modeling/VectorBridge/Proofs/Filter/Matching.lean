import VectorBridge.Proofs.Filter.Compiling
/-!
# Comparisons and their negations

A negated operator holds of exactly what the operator it negates does not hold
of, missing fields included. So a clause is one positive test of its field, and
whoever evaluates clauses in another way is compared with that test alone. A
list has no order of its own; a server that looks into lists finds an order
where the semantics has none (`ordersElement`).
-/

namespace VectorBridge

/-- What is no scalar equals none. -/
theorem Json.looseEq_of_isScalar {v w : Json} (hv : Clause.isScalar v = true)
    (hw : Clause.isScalar w = false) : w.looseEq v = false := by
  cases w with
  | str | num | bool => cases hw
  | _ => cases v <;> first | rfl | cases hv

/-- A value equals a text when it is that text. -/
theorem Json.looseEq_str (v : Json) (s : String) :
    v.looseEq (.str s) = decide (v.str? = some s) := by
  cases v <;> simp [Json.looseEq, Json.same, Json.str?, Bool.beq_eq_decide_eq]

/-- A value equals a truth value when it is that one. -/
theorem Json.looseEq_bool (v : Json) (b : Bool) :
    v.looseEq (.bool b) = decide (v.bool? = some b) := by
  cases v <;> simp [Json.looseEq, Json.same, Json.bool?, Bool.beq_eq_decide_eq]

/-- Membership is equality with one of the candidates. -/
theorem Filter.inList_eq_any (field : Json) (candidates : List Json) :
    inList field candidates =
      candidates.any fun x => anyElement (fun v => v.looseEq x) field := by
  cases field with
  | arr elems =>
    rw [Bool.eq_iff_iff]
    simp only [inList, anyElement, List.any_eq_true]
    exact ⟨fun ⟨e, he, x, hx, h⟩ => ⟨x, hx, e, he, h⟩, fun ⟨x, hx, e, he, h⟩ => ⟨e, he, x, hx, h⟩⟩
  | _ => rfl

/-- Whether the operator looks for its operand inside a field. -/
def Operator.asksInside : Operator → Bool
  | contains | notContains => true
  | _ => false

namespace Clause

/-- The operand of a valid membership test is the list of its candidates. -/
theorem value_eq_arr_list {c : Clause} (hv : c.validate = .ok ())
    (ho : c.operator.takesList = true) : c.value = .arr c.list := by
  have hok := operandOk_of_validate hv
  rw [operandOk, if_pos ho] at hok
  cases hj : c.value <;> simp_all [list]

/-- Whether a present field passes the test of a clause, negation left out. -/
def meets (c : Clause) (field : Json) : Bool :=
  match c.operator with
  | .eq | .ne => Filter.anyElement (fun v => v.looseEq c.value) field
  | .gt => field.compare? c.value == some .gt
  | .gte => field.compare? c.value == some .gt || field.compare? c.value == some .eq
  | .lt => field.compare? c.value == some .lt
  | .lte => field.compare? c.value == some .lt || field.compare? c.value == some .eq
  | .isIn | .notIn => Filter.inList field c.list
  | .contains | .notContains => Filter.holds field c.value

/-- A negated operator admits what does not pass the test. -/
theorem admits_eq (c : Clause) (field : Json) :
    c.admits field = (c.operator.isNegated ^^ c.meets field) := by
  cases ho : c.operator <;> simp [admits, meets, Operator.isNegated, ho]

/-- **A clause accepts an item** when its field is there and passes the test, or
for a negated operator when that is not so. -/
theorem accepts_eq (c : Clause) (item : Item) :
    c.accepts item = (c.operator.isNegated ^^ (c.fieldOf item).any c.meets) := by
  unfold accepts
  cases c.fieldOf item with
  | none => simp
  | some field => simp [admits_eq]

/-! ## Values one by one -/

/-- Whether one value passes the test of a clause, a list taken as a whole. -/
def meetsWhole (c : Clause) (v : Json) : Bool :=
  match c.operator with
  | .eq | .ne => v.looseEq c.value
  | .isIn | .notIn => c.list.any fun x => v.looseEq x
  | _ => c.meets v

/-- Off lists there is nothing to look into. -/
theorem meetsWhole_of_not_arr {v : Json} (hv : v.arr? = none) (c : Clause) :
    c.meetsWhole v = c.meets v := by
  cases v with
  | arr elems => cases hv
  | _ => cases hop : c.operator <;> simp [meetsWhole, meets, hop, Filter.anyElement, Filter.inList]

/-- Equality and membership look at the elements of a list. -/
theorem meets_eq_anyElement {c : Clause} (hr : c.operator.isRange = false)
    (hi : c.operator.asksInside = false) (v : Json) :
    c.meets v = Filter.anyElement c.meetsWhole v := by
  unfold meetsWhole meets
  cases hop : c.operator with
  | eq | ne | isIn | notIn => rfl
  | gt | gte | lt | lte => rw [hop] at hr; cases hr
  | contains | notContains => rw [hop] at hi; cases hi

/-- What is no scalar passes no valid test as a whole. -/
theorem meetsWhole_of_not_isScalar {c : Clause} (hv : c.validate = .ok ())
    (hi : c.operator.asksInside = false) {v : Json} (hs : isScalar v = false) :
    c.meetsWhole v = false := by
  cases hop : c.operator with
  | eq | ne =>
    rw [meetsWhole, hop]
    exact Json.looseEq_of_isScalar (isScalar_of_validate hv (by rw [hop]; rfl)) hs
  | isIn | notIn =>
    rw [meetsWhole, hop]
    have hscalar := isScalar_of_mem_list hv (by rw [hop]; rfl)
    exact List.any_eq_false.2 fun x hx => by simp [Json.looseEq_of_isScalar (hscalar x hx) hs]
  | gt | gte | lt | lte =>
    cases v with
    | str | num | bool => cases hs
    | _ => simp [meetsWhole, meets, hop, Json.compare?]
  | contains | notContains => rw [hop] at hi; cases hi

/-- Whether an order comparison passes on some element of a list. -/
def ordersElement (c : Clause) : Json → Bool
  | .arr elems => c.operator.isRange && elems.any c.meets
  | _ => false

/-- Only order comparisons find an order. -/
theorem ordersElement_of_not_isRange {c : Clause} (ho : c.operator.isRange = false)
    (field : Json) : c.ordersElement field = false := by
  cases field <;> simp [ordersElement, ho]

/-- A list itself passes no order comparison. -/
theorem meets_arr_of_isRange {c : Clause} (ho : c.operator.isRange = true) (elems : List Json) :
    c.meets (.arr elems) = false := by
  cases hop : c.operator <;> simp_all [meets, Operator.isRange, Json.compare?]

/-- An order of an element is one that the semantics does not find. -/
theorem meets_of_ordersElement {c : Clause} {field : Json} (h : c.ordersElement field = true) :
    c.meets field = false := by
  cases field with
  | arr elems => exact meets_arr_of_isRange (Bool.and_eq_true_iff.1 h).1 elems
  | _ => cases h

/-- **Looking at the elements of every list** finds what the semantics does, and
orders of elements beside. -/
theorem any_meetsWhole {c : Clause} (hi : c.operator.asksInside = false) (elems : List Json) :
    elems.any c.meetsWhole = (c.meets (.arr elems) ^^ c.ordersElement (.arr elems)) := by
  cases hr : c.operator.isRange with
  | true =>
    have hwhole : c.meetsWhole = c.meets := by
      funext v
      cases hop : c.operator <;> simp_all [meetsWhole, Operator.isRange]
    rw [meets_arr_of_isRange hr, ordersElement, hr, hwhole, Bool.false_xor, Bool.true_and]
  | false =>
    rw [meets_eq_anyElement hr hi, ordersElement_of_not_isRange hr, Bool.xor_false,
      Filter.anyElement]

end Clause

end VectorBridge
