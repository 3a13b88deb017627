import VectorBridge.Proofs.Filter.Matching
import VectorBridge.Proofs.Number
/-!
# Laws of the operators

What the operators say of a field hangs together as their names promise, whatever the
field holds and also where it is missing. Negated operators negate, membership is
equality with some candidate, `contains` on a list is equality with some element, and
order is an order of comparable values: two numbers or two texts are larger, smaller or
equal, and never two of these. The clauses of a filter are a set: neither their order
nor how often one stands there matters.
-/

namespace VectorBridge

/-! ## Values that are compared -/

/-- Two floats have an order unless one of them is no number. -/
theorem Binary64.isSome_compare? (x y : Float) :
    (compare? x y).isSome = (!isNaN x && !isNaN y) := by
  rw [compare?, compareKeys, natAbs_key, natAbs_key, isNaN, isNaN]
  split
  · rename_i h
    obtain h | h := h <;> simp [h]
  · rename_i h
    obtain ⟨hx, hy⟩ := not_or.1 h
    simp [hx, hy]

namespace Json

/-- Both values are texts, or both are numbers and neither is NaN, as no number of JSON is. -/
def Comparable : Json → Json → Prop
  | num m, num n => Binary64.isNaN m.toFloat = false ∧ Binary64.isNaN n.toFloat = false
  | str _, str _ => True
  | _, _ => False

/-- Finite numbers are comparable. -/
theorem comparable_of_isFinite {m n : Number} (hm : Binary64.isFinite m.toFloat = true)
    (hn : Binary64.isFinite n.toFloat = true) : (num m).Comparable (num n) := by
  have hnum : ∀ x, Binary64.isFinite x = true → Binary64.isNaN x = false := fun x hx =>
    decide_eq_false (Nat.lt_asymm (of_decide_eq_true hx))
  exact ⟨hnum _ hm, hnum _ hn⟩

variable {a b : Json}

/-- Comparable are the values that have an order. -/
theorem isSome_compare?_iff : (a.compare? b).isSome = true ↔ a.Comparable b := by
  cases a with
  | num m =>
    cases b with
    | num n =>
      rw [compare?, Number.compare?, Binary64.isSome_compare?]
      simp [Comparable]
    | _ => simp [compare?, Comparable]
  | str s =>
    cases b with
    | str t => exact iff_of_true rfl trivial
    | _ => simp [compare?, Comparable]
  | _ => simp [compare?, Comparable]

/-- **Order finds those values equal that equality does.** -/
theorem compare?_eq_some_eq_iff (h : a.Comparable b) :
    a.compare? b = some .eq ↔ a.looseEq b = true := by
  cases a with
  | num m =>
    cases b with
    | num n => exact decide_eq_true_iff.symm
    | _ => cases h
  | str s =>
    cases b with
    | str t =>
      rw [compare?, Option.some.injEq, compareOfLessAndEq_eq_eq String.le_refl String.not_le]
      exact beq_iff_eq.symm
    | _ => cases h
  | _ => cases h

/-- A value that has an order is no list, so equality looks at it as a whole. -/
theorem anyElement_of_comparable (h : a.Comparable b) (p : Json → Bool) :
    Filter.anyElement p a = p a := by
  cases a with
  | arr elems => cases h
  | _ => rfl

end Json

/-! ## Operators on one field -/

/-- The operator that a negated one negates. -/
def Operator.unnegated : Operator → Operator
  | ne => eq
  | notIn => isIn
  | notContains => contains
  | o => o

/-- The value that an item has in a field: its document, or what its metadata has there. -/
def Item.field? (item : Item) (field : String) : Option Json :=
  if field = documentField then item.document.map .str else Keyed.get? field item.metadata

namespace Clause

theorem fieldOf_eq (c : Clause) (item : Item) : c.fieldOf item = item.field? c.field := by
  by_cases h : c.field = documentField
  · rw [fieldOf, target, Item.field?, if_pos h, if_pos h]
  · rw [fieldOf, target, Item.field?, if_neg h, if_neg h]

section Laws

variable {field : String} {v w : Json} {item : Item}

/-- **A negated operator** holds of just the items of which its counterpart does not, those
without the field among them. -/
theorem accepts_of_isNegated {o : Operator} (ho : o.isNegated = true) :
    accepts ⟨field, o, v⟩ item = !accepts ⟨field, o.unnegated, v⟩ item := by
  have hmeets : meets ⟨field, o.unnegated, v⟩ = meets ⟨field, o, v⟩ := by
    cases o <;> rfl
  have hpositive : o.unnegated.isNegated = false := by
    cases o <;> rfl
  rw [accepts_eq, accepts_eq, fieldOf_eq, fieldOf_eq, hmeets, hpositive, ho, Bool.true_xor,
    Bool.false_xor]

/-- A list of candidates is one equality for each. -/
theorem accepts_isIn (vs : List Json) :
    accepts ⟨field, .isIn, .arr vs⟩ item = vs.any fun v => accepts ⟨field, .eq, v⟩ item := by
  simp only [accepts_eq, Operator.isNegated, Bool.false_xor, fieldOf_eq]
  cases item.field? field with
  | none => simp
  | some w => exact Filter.inList_eq_any w vs

/-- To be off a list is to differ from every candidate. -/
theorem accepts_notIn_arr (vs : List Json) :
    accepts ⟨field, .notIn, .arr vs⟩ item = vs.all fun v => accepts ⟨field, .ne, v⟩ item := by
  rw [accepts_of_isNegated rfl, Operator.unnegated, accepts_isIn, List.not_any_eq_all_not]
  simp only [accepts_of_isNegated (o := .ne) rfl, Operator.unnegated]

/-- A positive operator asks for a field that passes the test. -/
theorem accepts_iff_exists_meets {o : Operator} (ho : o.isNegated = false) :
    accepts ⟨field, o, v⟩ item = true ↔
      ∃ w, item.field? field = some w ∧ meets ⟨field, o, v⟩ w = true := by
  rw [accepts_eq, fieldOf_eq, ho, Bool.false_xor, Option.any_eq_true]

theorem accepts_of_field {o : Operator} (ho : o.isNegated = false)
    (hw : item.field? field = some w) :
    accepts ⟨field, o, v⟩ item = meets ⟨field, o, v⟩ w := by
  rw [accepts_eq, fieldOf_eq, hw, ho, Option.any_some, Bool.false_xor]

/-- Elements of a list are looked for by equality. -/
theorem accepts_contains_of_arr {elems : List Json} (hw : item.field? field = some (.arr elems)) :
    accepts ⟨field, .contains, v⟩ item = accepts ⟨field, .eq, v⟩ item := by
  rw [accepts_of_field rfl hw, accepts_of_field rfl hw]
  rfl

/-- **Both bounds hold together** where the field is as large as the operand. -/
theorem accepts_gte_and_lte :
    accepts ⟨field, .gte, v⟩ item = true ∧ accepts ⟨field, .lte, v⟩ item = true ↔
      ∃ w, item.field? field = some w ∧ w.compare? v = some .eq := by
  constructor
  · rintro ⟨hge, hle⟩
    obtain ⟨w, hw, hge⟩ := (accepts_iff_exists_meets rfl).1 hge
    rw [accepts_of_field rfl hw] at hle
    simp only [meets, Bool.or_eq_true, beq_iff_eq] at hge hle
    refine ⟨w, hw, hge.resolve_left fun hgt => ?_⟩
    rw [hgt] at hle
    obtain hlt | heq := hle <;> contradiction
  · rintro ⟨w, hw, heq⟩
    constructor <;> rw [accepts_of_field rfl hw, meets, heq] <;> rfl

/-- A comparable field equals the operand when it is as large. -/
theorem accepts_eq_iff (hw : item.field? field = some w) (hc : w.Comparable v) :
    accepts ⟨field, .eq, v⟩ item = true ↔ w.compare? v = some .eq := by
  rw [accepts_of_field rfl hw, meets, Json.anyElement_of_comparable hc,
    Json.compare?_eq_some_eq_iff hc]

/-- **Comparable values are larger, smaller or equal**, and one of these only. -/
theorem existsUnique_accepts (hw : item.field? field = some w) (hc : w.Comparable v) :
    ∃! o, o ∈ [Operator.gt, .lt, .eq] ∧ accepts ⟨field, o, v⟩ item = true := by
  have hgt : accepts ⟨field, .gt, v⟩ item = true ↔ w.compare? v = some .gt := by
    rw [accepts_of_field rfl hw, meets, beq_iff_eq]
  have hlt : accepts ⟨field, .lt, v⟩ item = true ↔ w.compare? v = some .lt := by
    rw [accepts_of_field rfl hw, meets, beq_iff_eq]
  have heq := accepts_eq_iff hw hc
  obtain ⟨r, hr⟩ := Option.isSome_iff_exists.1 (Json.isSome_compare?_iff.2 hc)
  rw [hr, Option.some.injEq] at hgt hlt heq
  cases r with
  | lt => exact ⟨.lt, by simp [hlt], by simp [hgt, hlt, heq]⟩
  | eq => exact ⟨.eq, by simp [heq], by simp [hgt, hlt, heq]⟩
  | gt => exact ⟨.gt, by simp [hgt], by simp [hgt, hlt, heq]⟩

end Laws

end Clause

/-- The clauses of a filter are a set. -/
theorem Filter.accepts_congr {f g : Filter} (h : ∀ c, c ∈ f.clauses ↔ c ∈ g.clauses)
    (item : Item) : f.accepts item = g.accepts item := by
  rw [accepts, accepts, Bool.eq_iff_iff, List.all_eq_true, List.all_eq_true]
  exact forall_congr' fun c => by rw [h c]

/-- **The operators obey the logic of their names** on every field of every item, present or
not: negation, membership, order, and the clauses of a filter as a set. -/
theorem Clause.operators_obey_logic (item : Item) (field : String) :
    let holds (o : Operator) (v : Json) : Bool := accepts ⟨field, o, v⟩ item
    (∀ v, holds .ne v = !holds .eq v ∧ holds .notIn v = !holds .isIn v ∧
      holds .notContains v = !holds .contains v) ∧
    (∀ vs, holds .isIn (.arr vs) = vs.any (holds .eq) ∧
      holds .notIn (.arr vs) = vs.all (holds .ne)) ∧
    (∀ elems v, item.field? field = some (.arr elems) → holds .contains v = holds .eq v) ∧
    (∀ v, holds .gte v = true ∧ holds .lte v = true ↔
      ∃ w, item.field? field = some w ∧ w.Comparable v ∧ w.compare? v = some .eq) ∧
    (∀ w v, item.field? field = some w → w.Comparable v →
      (holds .eq v = true ↔ w.compare? v = some .eq) ∧
        ∃! o, o ∈ [Operator.gt, .lt, .eq] ∧ holds o v = true) ∧
    ∀ f g : Filter, (∀ c, c ∈ f.clauses ↔ c ∈ g.clauses) → f.accepts item = g.accepts item := by
  refine ⟨fun v => ⟨accepts_of_isNegated rfl, accepts_of_isNegated rfl, accepts_of_isNegated rfl⟩,
    fun vs => ⟨accepts_isIn vs, accepts_notIn_arr vs⟩,
    fun elems v hw => accepts_contains_of_arr hw, fun v => ?_,
    fun w v hw hc => ⟨accepts_eq_iff hw hc, existsUnique_accepts hw hc⟩,
    fun f g h => Filter.accepts_congr h item⟩
  refine accepts_gte_and_lte.trans (exists_congr fun w => and_congr_right fun _ => ?_)
  exact ⟨fun heq => ⟨Json.isSome_compare?_iff.1 (by rw [heq]; rfl), heq⟩, And.right⟩

/-- A list that is searched, a number met in another form, and a clause that stands twice. -/
theorem Clause.operators_obey_logic_of_list_and_number :
    let item : Item :=
      ⟨"1", none, [("n", .num (.int 7)), ("tags", .arr [.str "a", .str "b"])], none⟩
    let f : Filter := ⟨[⟨"tags", .eq, .str "b"⟩, ⟨"n", .gt, .num (.int 5)⟩]⟩
    let g : Filter := ⟨[⟨"n", .gt, .num (.int 5)⟩, ⟨"tags", .eq, .str "b"⟩,
      ⟨"n", .gt, .num (.int 5)⟩]⟩
    item.field? "tags" = some (.arr [.str "a", .str "b"]) ∧
      accepts ⟨"tags", .contains, .str "b"⟩ item = accepts ⟨"tags", .eq, .str "b"⟩ item ∧
      item.field? "n" = some (.num (.int 7)) ∧
      (Json.num (.int 7)).Comparable (.num (.flt 7)) ∧
      (∃! o, o ∈ [Operator.gt, .lt, .eq] ∧ accepts ⟨"n", o, .num (.flt 7)⟩ item = true) ∧
      (∀ c, c ∈ f.clauses ↔ c ∈ g.clauses) ∧ f.accepts item = g.accepts item := by
  intro item f g
  have hcomp : (Json.num (.int 7)).Comparable (.num (.flt 7)) :=
    Json.comparable_of_isFinite (by decide) (by decide)
  have hset : ∀ c, c ∈ f.clauses ↔ c ∈ g.clauses := fun c => by
    simp only [f, g, List.mem_cons, List.not_mem_nil, or_false]
    tauto
  obtain ⟨-, -, hlist, -, -, hcongr⟩ := operators_obey_logic item "tags"
  obtain ⟨-, -, -, -, horder, -⟩ := operators_obey_logic item "n"
  exact ⟨rfl, hlist _ _ rfl, rfl, hcomp, (horder _ _ rfl hcomp).2, hset, hcongr f g hset⟩

end VectorBridge
