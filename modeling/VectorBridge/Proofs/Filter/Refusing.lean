import VectorBridge.Columnar.Store
import VectorBridge.Proofs.Chroma.Pushdown
import VectorBridge.Proofs.Filter.Splitting
import VectorBridge.Proofs.Milvus.Pushdown
import VectorBridge.Proofs.Qdrant.Pushdown
import VectorBridge.Proofs.Weaviate.Pushdown
/-!
# Filters that a backend cannot express

A filter that is not valid is invalid input to every backend. A valid one is refused
because of single clauses, those that the backend evaluates itself and that do not lower,
and is then unsupported. Which clauses these are is said of each backend here
(`Refuses`): order comparisons that it does not have, and candidates of several kinds.
-/

namespace VectorBridge

/-- The kind of a value, by its name in JSON. -/
def Json.typeName : Json → String
  | .null => "null"
  | .bool _ => "boolean"
  | .num _ => "number"
  | .str _ => "string"
  | .arr _ => "array"
  | .obj _ => "object"

/-- One kind is asked of a list by asking each element for that of any of them. -/
theorem Json.all_typeName {v : Json} {vs : List Json} (hv : v ∈ vs) :
    (vs.all fun u => vs.all fun w => u.typeName = w.typeName) =
      vs.all fun w => w.typeName = v.typeName := by
  rw [Bool.eq_iff_iff]
  simp only [List.all_eq_true, decide_eq_true_eq]
  constructor
  · exact fun h w hw => h w hw v hv
  · exact fun h u hu w hw => (h u hu).trans (h w hw).symm

namespace Clause

/-- An order comparison with a number. -/
def ordersNumber (c : Clause) : Bool := c.operator.isRange && c.value.num?.isSome

/-- An order comparison with a text. -/
def ordersText (c : Clause) : Bool := c.operator.isRange && c.value.str?.isSome

/-- A membership test with candidates of more than one kind. -/
def mixesKinds (c : Clause) : Bool :=
  c.operator = .isIn && !c.list.all fun v => c.list.all fun w => v.typeName = w.typeName

theorem ordersNumber_iff {c : Clause} :
    c.ordersNumber = true ↔ c.operator.isRange = true ∧ ∃ n, c.value = .num n := by
  rw [ordersNumber, Bool.and_eq_true]
  cases c.value <;> simp [Json.num?]

theorem ordersText_iff {c : Clause} :
    c.ordersText = true ↔ c.operator.isRange = true ∧ ∃ s, c.value = .str s := by
  rw [ordersText, Bool.and_eq_true]
  cases c.value <;> simp [Json.str?]

/-- Order is asked of numbers and texts only. -/
theorem orders_of_isRange {c : Clause} (hv : c.validate = .ok ())
    (hr : c.operator.isRange = true) : c.ordersNumber = true ∨ c.ordersText = true := by
  have hok := operandOk_of_validate hv
  have hl : c.operator.takesList = false := by
    cases hop : c.operator <;> simp_all [Operator.isRange, Operator.takesList]
  rw [operandOk, hl, hr, if_neg Bool.false_ne_true, if_pos rfl] at hok
  rw [ordersNumber, ordersText, hr]
  cases hvalue : c.value with
  | num n => exact .inl rfl
  | str s => exact .inr rfl
  | _ => rw [hvalue] at hok; cases hok

/-- What is not valid is invalid input. -/
theorem kind_of_validate {c : Clause} {e : Error} (h : c.validate = .error e) :
    e.kind = .invalidInput := by
  unfold validate at h
  split at h
  · cases h
    rfl
  · split at h
    · cases h
    · cases h
      rfl

end Clause

namespace FilterCompiler

variable {Condition Fragment : Type} {K : FilterCompiler Condition Fragment}
  {refused : Clause → Bool}

/-- Which filters a compiler fails on: those that are not valid, as invalid input, and
of the valid ones those with a clause that is refused, as unsupported. -/
structure Refuses (K : FilterCompiler Condition Fragment) (refused : Clause → Bool) : Prop where
  invalid : ∀ f : Filter, f.validate ≠ .ok () →
    ∃ e, K.compile f = .error e ∧ e.kind = .invalidInput
  fails_iff : ∀ f : Filter, f.validate = .ok () →
    ((∃ e, K.compile f = .error e) ↔ ∃ c ∈ f.clauses, refused c = true)
  unsupported : ∀ (f : Filter) (e : Error), f.validate = .ok () → K.compile f = .error e →
    e.kind = .unsupportedOperator

/-- **What a compiler refuses is told clause by clause**: its own clauses lower unless
they are refused, and what is refused is its own and does not lower. -/
theorem refuses_of_lower
    (hlower : ∀ c, c.validate = .ok () → K.capabilities.isServerSide c = true →
      refused c = false → ∃ d, K.lower c = .ok d)
    (hrefused : ∀ c, c.validate = .ok () → refused c = true →
      K.capabilities.isServerSide c = true ∧
        ∃ message, K.lower c = .error (.unsupportedOperator message)) :
    K.Refuses refused := by
  -- a valid filter fails for one of the clauses that the backend evaluates
  have hfirst : ∀ f : Filter, f.validate = .ok () → ∀ e,
      K.compile f = .error e ↔ FirstFailure K.lower (K.serverSide f) e := by
    intro f hf e
    rw [compile_eq_error_iff, ← Filter.validate_eq_error_iff, ← Filter.validate_eq_ok_iff, hf]
    simp
  have hfails : ∀ c, c.validate = .ok () → K.capabilities.isServerSide c = true → ∀ e,
      K.lower c = .error e → refused c = true := by
    intro c hc hs e he
    refine Bool.not_eq_false _ ▸ fun hno => ?_
    obtain ⟨d, hd⟩ := hlower c hc hs hno
    cases he.symm.trans hd
  constructor
  case invalid =>
    intro f hf
    cases hv : f.validate with
    | ok => exact absurd hv hf
    | error e =>
      have h := Filter.validate_eq_error_iff.1 hv
      obtain ⟨c, -, hc⟩ := h.exists_mem
      exact ⟨e, compile_eq_error_iff.2 (.inl h), Clause.kind_of_validate hc⟩
  case fails_iff =>
    intro f hf
    have hvalid := Filter.validate_eq_ok_iff.1 hf
    simp only [hfirst f hf, FirstFailure.exists_iff, serverSide, List.mem_filter]
    constructor
    · rintro ⟨c, ⟨hc, hs⟩, e, he⟩
      exact ⟨c, hc, hfails c (hvalid c hc) hs e he⟩
    · rintro ⟨c, hc, hno⟩
      obtain ⟨hs, message, he⟩ := hrefused c (hvalid c hc) hno
      exact ⟨c, ⟨hc, hs⟩, _, he⟩
  case unsupported =>
    intro f e hf h
    obtain ⟨c, hc, he⟩ := ((hfirst f hf e).1 h).exists_mem
    obtain ⟨hmem, hs⟩ := List.mem_filter.1 hc
    have hvalid := Filter.validate_eq_ok_iff.1 hf c hmem
    obtain ⟨-, message, he'⟩ := hrefused c hvalid (hfails c hvalid hs e he)
    obtain rfl := Except.error.inj (he.symm.trans he')
    rfl

end FilterCompiler

section Backends

variable {c : Clause}

/-! ## Tables -/

/-- Nothing is evaluated by a table, so nothing is refused. -/
theorem Columnar.refuses_nothing : Columnar.filterCompiler.Refuses fun _ => false := by
  refine FilterCompiler.refuses_of_lower (fun c _ hs _ => ?_) nofun
  rw [filterCompiler, Capabilities.isServerSide_allResidual] at hs
  cases hs

/-! ## Milvus -/

namespace Milvus

/-- Scalars have literals. -/
theorem exists_ofJson? {v : Json} (h : Clause.isScalar v = true) :
    ∃ l, Literal.ofJson? v = some l := by
  cases v with
  | str s => exact ⟨_, rfl⟩
  | num n => exact ⟨_, rfl⟩
  | bool b => exact ⟨_, rfl⟩
  | _ => cases h

/-- Lists of scalars have literals. -/
theorem exists_ofList? {vs : List Json} (h : ∀ v ∈ vs, Clause.isScalar v = true) :
    ∃ ls, Literal.ofList? vs = some ls := by
  induction vs with
  | nil => exact ⟨_, rfl⟩
  | cons v vs ih =>
    obtain ⟨hv, hvs⟩ := List.forall_mem_cons.1 h
    obtain ⟨l, hl⟩ := exists_ofJson? hv
    obtain ⟨ls, hls⟩ := ih hvs
    exact ⟨l :: ls, by simp [Literal.ofList?, hl, hls]⟩

/-- The operand of a valid clause has a literal. -/
theorem exists_literal (hv : c.validate = .ok ()) : ∃ l, Literal.ofJson? c.value = some l := by
  cases hl : c.operator.takesList with
  | false => exact exists_ofJson? (Clause.isScalar_of_validate hv hl)
  | true =>
    obtain ⟨ls, hls⟩ := exists_ofList? (Clause.isScalar_of_mem_list hv hl)
    exact ⟨.list ls, by rw [Clause.value_eq_arr_list hv hl, Literal.ofJson?, hls]; rfl⟩

/-- Every operator of the server is one of expressions. -/
theorem exists_op (hs : filterCompiler.capabilities.isServerSide c = true) :
    ∃ op, Op.ofOperator? c.operator (fieldOf c) = some op := by
  rw [isServerSide_eq] at hs
  rw [ofOperator?_fieldOf]
  cases hop : c.operator <;> simp_all [residualOperators]

theorem refuses_nothing : filterCompiler.Refuses fun _ => false := by
  refine FilterCompiler.refuses_of_lower (fun c hv hs _ => ?_) nofun
  obtain ⟨op, hop⟩ := exists_op hs
  obtain ⟨l, hl⟩ := exists_literal hv
  exact ⟨⟨fieldOf c, op, l⟩, by simp only [filterCompiler, lower, hop, hl]⟩

end Milvus

/-! ## SQL -/

namespace Postgres

variable {n : Number} {t key : String}

/-- What asks for no order has a condition on the document and on metadata. -/
theorem exists_lower_of_not_isRange (hr : c.operator.isRange = false) :
    ∃ d, lower c = .ok d := by
  cases hop : c.operator <;> cases ht : c.target <;> simp_all [lower, Operator.isRange]

/-- Texts have an order in both places. -/
theorem exists_lower_text (hr : c.operator.isRange = true) (hv : c.value = .str t) :
    ∃ d, lower c = .ok d := by
  cases hop : c.operator <;> simp_all [lower, Operator.isRange, SqlOrdering.ofOperator?]

/-- Numbers have one in metadata. -/
theorem exists_lower_number (hr : c.operator.isRange = true) (hv : c.value = .num n)
    (ht : c.target = .metadata key) : ∃ d, lower c = .ok d := by
  cases hop : c.operator <;> simp_all [lower, Operator.isRange, SqlOrdering.ofOperator?]

/-- A document is text, and has no order with numbers. -/
theorem lower_number_of_document (hr : c.operator.isRange = true) (hv : c.value = .num n)
    (ht : c.target = .document) : ∃ message, lower c = .error (.unsupportedOperator message) := by
  cases hop : c.operator <;> simp_all [lower, Operator.isRange, SqlOrdering.ofOperator?]

theorem refuses_number_orders_of_document :
    filterCompiler.Refuses fun c => c.onDocument && c.ordersNumber := by
  refine FilterCompiler.refuses_of_lower (fun c hv _ hno => ?_) fun c hv hrefused => ?_
  · cases hr : c.operator.isRange with
    | false => exact exists_lower_of_not_isRange hr
    | true =>
      obtain hnum | htext := Clause.orders_of_isRange hv hr
      · have hd : c.onDocument = false := by simpa [hnum] using hno
        obtain ⟨-, n, hvalue⟩ := Clause.ordersNumber_iff.1 hnum
        exact exists_lower_number hr hvalue (if_neg (of_decide_eq_false hd))
      · obtain ⟨-, t, hvalue⟩ := Clause.ordersText_iff.1 htext
        exact exists_lower_text hr hvalue
  · obtain ⟨hd, hnum⟩ := Bool.and_eq_true_iff.1 hrefused
    obtain ⟨hr, n, hvalue⟩ := Clause.ordersNumber_iff.1 hnum
    exact ⟨Capabilities.isServerSide_allServerSide c,
      lower_number_of_document hr hvalue (if_pos (of_decide_eq_true hd))⟩

end Postgres

/-! ## Qdrant -/

namespace Qdrant

/-- A scalar can be matched. -/
theorem exists_equals (key : String) {v : Json} (h : Clause.isScalar v = true) :
    ∃ d, equals key v = .ok d := by
  cases v with
  | str s => exact ⟨_, rfl⟩
  | num n => exact ⟨_, rfl⟩
  | bool b => exact ⟨_, rfl⟩
  | _ => cases h

/-- Scalars can be matched one by one. -/
theorem exists_equalsEach (key : String) {vs : List Json}
    (h : ∀ v ∈ vs, Clause.isScalar v = true) : ∃ ds, equalsEach key vs = .ok ds := by
  induction vs with
  | nil => exact ⟨_, rfl⟩
  | cons v vs ih =>
    obtain ⟨hv, hvs⟩ := List.forall_mem_cons.1 h
    obtain ⟨d, hd⟩ := exists_equals key hv
    obtain ⟨ds, hds⟩ := ih hvs
    exact ⟨d :: ds, by simp only [equalsEach, hd, hds]⟩

theorem exists_anyOf (key : String) {vs : List Json}
    (h : ∀ v ∈ vs, Clause.isScalar v = true) : ∃ d, anyOf key vs = .ok d := by
  obtain ⟨ds, hds⟩ := exists_equalsEach key
    (fun v hv => h v (List.mem_filter.1 hv).1 : ∀ v ∈ vs.filter fun v => v.str?.isNone, _)
  unfold anyOf
  simp only [hds]
  split <;> exact ⟨_, rfl⟩

theorem exists_contains (key : String) {v : Json} (h : Clause.isScalar v = true) :
    ∃ d, contains key v = .ok d := by
  cases v with
  | str s => exact ⟨_, rfl⟩
  | _ => exact exists_equals key h

/-- Order is one of numbers. -/
theorem refuses_text_orders : filterCompiler.Refuses Clause.ordersText := by
  refine FilterCompiler.refuses_of_lower (fun c hv _ hno => ?_) fun c hv hrefused => ?_
  · show ∃ d, lower c = .ok d
    have hscalar := Clause.isScalar_of_validate hv
    have hlist := Clause.isScalar_of_mem_list hv
    cases hop : c.operator with
    | eq | ne =>
      obtain ⟨d, hd⟩ := exists_equals c.field (hscalar (by rw [hop]; rfl))
      exact ⟨_, by simp only [lower, hop, hd, Except.map]; rfl⟩
    | gt | gte | lt | lte =>
      have hnum := (Clause.orders_of_isRange hv (by rw [hop]; rfl)).resolve_right (by simp [hno])
      obtain ⟨-, n, hvalue⟩ := Clause.ordersNumber_iff.1 hnum
      exact ⟨_, by simp only [lower, hop, ordered, hvalue]; rfl⟩
    | isIn | notIn =>
      obtain ⟨d, hd⟩ := exists_anyOf c.field (hlist (by rw [hop]; rfl))
      exact ⟨_, by simp only [lower, hop, hd, Except.map]; rfl⟩
    | contains | notContains =>
      obtain ⟨d, hd⟩ := exists_contains c.field (hscalar (by rw [hop]; rfl))
      exact ⟨_, by simp only [lower, hop, hd, Except.map]; rfl⟩
  · obtain ⟨hr, s, hvalue⟩ := Clause.ordersText_iff.1 hrefused
    refine ⟨Capabilities.isServerSide_allServerSide c, ?_⟩
    show ∃ message, lower c = .error (.unsupportedOperator message)
    cases hop : c.operator <;>
      simp_all [lower, ordered, number?, Json.num?, Operator.isRange, Except.map]

end Qdrant

/-! ## Chroma -/

/-- Order is one of numbers, and documents are left to the client. -/
theorem Chroma.refuses_text_orders_of_metadata :
    Chroma.filterCompiler.Refuses fun c => !c.onDocument && c.ordersText := by
  refine FilterCompiler.refuses_of_lower (fun c hv hs hno => ?_) fun c hv hrefused => ?_
  · show ∃ d, lower c = .ok d
    rw [isServerSide_eq, Bool.and_eq_true, Bool.not_eq_true', Bool.not_eq_true'] at hs
    obtain ⟨hd, hinside⟩ := hs
    have hordered : (c.operator.isRange && c.value.num?.isNone) = false := by
      cases hr : c.operator.isRange with
      | false => rfl
      | true =>
        have hnum := (Clause.orders_of_isRange hv hr).resolve_right (by simpa [hd] using hno)
        obtain ⟨-, n, hvalue⟩ := Clause.ordersNumber_iff.1 hnum
        rw [hvalue]
        rfl
    obtain ⟨op, hop⟩ : ∃ op, whereOperator? c.operator = some op := by
      cases hop : c.operator <;> simp_all [Operator.asksInside, whereOperator?]
    exact ⟨_, by simp only [lower, hop, hordered]; rfl⟩
  · obtain ⟨hd, htext⟩ := Bool.and_eq_true_iff.1 hrefused
    obtain ⟨hr, s, hvalue⟩ := Clause.ordersText_iff.1 htext
    constructor
    · rw [isServerSide_eq, hd, Bool.true_and, Bool.not_eq_true']
      cases hop : c.operator <;> simp_all [Operator.isRange, Operator.asksInside]
    · show ∃ message, lower c = .error (.unsupportedOperator message)
      cases hop : c.operator <;>
        simp_all [lower, whereOperator?, Operator.isRange, Json.num?]

/-! ## Weaviate -/

namespace Weaviate

/-- A list is read when every element is. -/
theorem isSome_mapM {α : Type} (read : Json → Option α) (vs : List Json) :
    (vs.mapM read).isSome = vs.all fun v => (read v).isSome := by
  induction vs with
  | nil => rfl
  | cons v vs ih =>
    rw [List.mapM_cons, List.all_cons, ← ih]
    cases read v <;> cases vs.mapM read <;> rfl

/-- **Scalars are an operand together when they are of one kind.** -/
theorem isSome_operand {vs : List Json} (h : ∀ v ∈ vs, Clause.isScalar v = true) :
    (Operand.ofJson? (.arr vs)).isSome =
      vs.all fun v => vs.all fun w => v.typeName = w.typeName := by
  cases vs with
  | nil => rfl
  | cons v vs =>
    -- the first element says how all of them are read
    have hread : ∀ {α : Type} (read : Json → Option α),
        (∀ w, (read w).isSome = decide (w.typeName = v.typeName)) →
        ((v :: vs).mapM read).isSome =
          (v :: vs).all fun u => (v :: vs).all fun w => u.typeName = w.typeName := by
      intro α read hkind
      rw [isSome_mapM, Json.all_typeName List.mem_cons_self]
      simp only [hkind]
    have hv := h v List.mem_cons_self
    cases v with
    | num n => exact Option.isSome_map.trans (hread number? fun w => by cases w <;> rfl)
    | bool b => exact Option.isSome_map.trans (hread Json.bool? fun w => by cases w <;> rfl)
    | str s => exact Option.isSome_map.trans (hread Json.str? fun w => by cases w <;> rfl)
    | _ => cases hv

/-- The operand of a valid clause of the server has a form, unless it mixes kinds. -/
theorem isSome_operand_value (hv : c.validate = .ok ())
    (hs : filterCompiler.capabilities.isServerSide c = true) :
    (Operand.ofJson? c.value).isSome = !c.mixesKinds := by
  cases hl : c.operator.takesList with
  | false =>
    have hscalar := Clause.isScalar_of_validate hv hl
    have hop : c.operator ≠ .isIn := fun hop => by rw [hop] at hl; cases hl
    rw [Clause.mixesKinds, decide_eq_false hop]
    cases hvalue : c.value with
    | num n => rfl
    | bool b => rfl
    | str s => rfl
    | _ => rw [hvalue] at hscalar; cases hscalar
  | true =>
    rw [isServerSide_eq] at hs
    have hop : c.operator = .isIn := by
      cases hop : c.operator <;> simp_all [residualOperators, Operator.takesList]
    rw [Clause.value_eq_arr_list hv hl, isSome_operand (Clause.isScalar_of_mem_list hv hl),
      Clause.mixesKinds, hop, decide_eq_true rfl, Bool.true_and, Bool.not_not]

/-- Candidates are of one kind. -/
theorem refuses_mixed_kinds : filterCompiler.Refuses Clause.mixesKinds := by
  refine FilterCompiler.refuses_of_lower (fun c hv hs hno => ?_) fun c hv hrefused => ?_
  · have hsome := isSome_operand_value hv hs
    rw [hno] at hsome
    obtain ⟨operand, hoperand⟩ := Option.isSome_iff_exists.1 hsome
    obtain ⟨comparison, hcomparison⟩ : ∃ comparison, comparison? c.operator = some comparison := by
      rw [isServerSide_eq] at hs
      cases hop : c.operator <;> simp_all [residualOperators, comparison?]
    exact ⟨_, by simp only [filterCompiler, lower, hoperand, hcomparison]; rfl⟩
  · have hop : c.operator = .isIn := of_decide_eq_true (Bool.and_eq_true_iff.1 hrefused).1
    have hs : filterCompiler.capabilities.isServerSide c = true := by
      rw [isServerSide_eq, hop]
      rfl
    have hsome := isSome_operand_value hv hs
    rw [hrefused, Bool.not_true, Option.isSome_eq_false_iff, Option.isNone_iff_eq_none] at hsome
    exact ⟨hs, _, by simp only [filterCompiler, lower, hsome]; rfl⟩

end Weaviate

/-- **Each backend refuses exactly the valid filters that it cannot express.** Milvus and
tables refuse none; the SQL database an order comparison of the document with a number,
Qdrant one with a text, Chroma one of metadata with a text, and Weaviate a membership test
with candidates of several kinds. What is refused is unsupported, and what is not valid is
invalid input to all six. -/
theorem FilterCompiler.backends_refuse_what_they_cannot_express :
    Milvus.filterCompiler.Refuses (fun _ => false) ∧
    Columnar.filterCompiler.Refuses (fun _ => false) ∧
    Postgres.filterCompiler.Refuses (fun c => c.onDocument && c.ordersNumber) ∧
    Qdrant.filterCompiler.Refuses Clause.ordersText ∧
    Chroma.filterCompiler.Refuses (fun c => !c.onDocument && c.ordersText) ∧
    Weaviate.filterCompiler.Refuses Clause.mixesKinds :=
  ⟨Milvus.refuses_nothing, Columnar.refuses_nothing, Postgres.refuses_number_orders_of_document,
    Qdrant.refuses_text_orders, Chroma.refuses_text_orders_of_metadata,
    Weaviate.refuses_mixed_kinds⟩

end Backends

end VectorBridge
