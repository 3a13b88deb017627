import VectorBridge.Postgres.Server
import VectorBridge.Proofs.Filter.Matching
/-!
# SQL conditions mean what their clauses say

The database evaluates every clause, so nothing is left to the client, and
what it evaluates is compared with the filter semantics one evaluator
at a time: containment of candidates with equality and membership, text
membership with both on a document, and order. A missing field is the
place where the two differ in form: the database folds it into falsehood and
guards the negations, the semantics asks whether the operator is negated.
-/

namespace VectorBridge

namespace Postgres

/-! ## The two evaluators -/

/-- Containment is equality of the field or of some element. -/
theorem jsonContains_eq (field value : Json) :
    jsonContains field value = Filter.anyElement (fun v => v.looseEq value) field := by
  cases field <;> rfl

/-- Containment of some candidate is membership. -/
theorem any_jsonContains_eq (field : Json) (candidates : List Json) :
    (candidates.any fun x => jsonContains field x) = Filter.inList field candidates := by
  simp only [jsonContains_eq, Filter.inList_eq_any]

/-- The two tests of substrings and elements agree. -/
theorem containsNeedle_eq (field needle : Json) :
    containsNeedle field needle = Filter.holds field needle := by
  cases field <;> cases needle <;> rfl

theorem str?_str (t : String) : (Json.str t).str? = some t := rfl

/-- A text equals a value when it is the value's text. -/
theorem looseEq_str (t : String) (v : Json) :
    (Json.str t).looseEq v = decide (v.str? = some t) := by
  cases v <;> simp [Json.looseEq, Json.same, Json.str?, Bool.beq_eq_decide_eq, eq_comm]

/-- A document equals a value when it is among the value's texts. -/
theorem contains_toList_str? (t : String) (v : Json) :
    v.str?.toList.contains t = (Json.str t).looseEq v := by
  rw [looseEq_str]
  cases v.str? <;> simp [eq_comm]

/-- A document is among some candidates when it is among their texts. -/
theorem contains_filterMap_str? (t : String) (l : List Json) :
    (l.filterMap Json.str?).contains t = l.any fun v => (Json.str t).looseEq v := by
  rw [Bool.eq_iff_iff]
  simp only [looseEq_str, List.contains_iff_mem, List.mem_filterMap, List.any_eq_true,
    decide_eq_true_eq]

/-- An order comparison of a clause is the one of its SQL ordering. -/
theorem admits_ordering {c : Clause} {o : SqlOrdering}
    (ho : SqlOrdering.ofOperator? c.operator = some o) (field : Json) :
    c.admits field = o.admits (field.compare? c.value) := by
  cases hop : c.operator <;> simp only [hop, SqlOrdering.ofOperator?, Option.some.injEq,
    reduceCtorEq] at ho <;> subst ho <;> simp [Clause.admits, SqlOrdering.admits, hop]

/-- What has no order passes no order comparison. -/
theorem SqlOrdering.admits_none (o : SqlOrdering) : o.admits none = false := by
  cases o <;> rfl

theorem not_isNegated_of_ordering {p : Operator} {o : SqlOrdering}
    (ho : SqlOrdering.ofOperator? p = some o) : p.isNegated = false := by
  cases p <;> simp_all [SqlOrdering.ofOperator?, Operator.isNegated]

/-! ## Clause by clause -/

/-- The condition of a clause looks where the clause looks. -/
theorem SqlCondition.valueIn_eq (c : Clause) (p : SqlPredicate) (item : Item) :
    SqlCondition.valueIn ⟨c.target, p⟩ item = c.fieldOf item := rfl

/-- What an order comparison lowers to: a text comparison, or off the document
a numeric one. -/
theorem lower_ordering {c : Clause} {o : SqlOrdering} {d : SqlCondition}
    (ho : SqlOrdering.ofOperator? c.operator = some o) (h : lower c = .ok d) :
    (∃ s, c.value = .str s ∧ d = ⟨c.target, .textCmp o s⟩) ∨
      (∃ n key, c.value = .num n ∧ c.target = .metadata key ∧
        d = ⟨c.target, .numericCmp o n.toFloat⟩) := by
  cases hop : c.operator <;> simp only [hop, SqlOrdering.ofOperator?, reduceCtorEq] at ho <;>
    cases hv : c.value <;> cases ht : c.target <;>
    simp_all [lower, SqlOrdering.ofOperator?]

/-- An order comparison holds in the database when the clause does. -/
theorem holds_ordering {c : Clause} {o : SqlOrdering} {d : SqlCondition} (item : Item)
    (ho : SqlOrdering.ofOperator? c.operator = some o) (h : lower c = .ok d) :
    d.holds item = c.accepts item := by
  have hn := not_isNegated_of_ordering ho
  rcases lower_ordering ho h with ⟨s, hv, rfl⟩ | ⟨n, key, hv, -, rfl⟩
  · simp only [SqlCondition.holds, SqlCondition.valueIn_eq, Clause.accepts]
    cases c.fieldOf item with
    | none => simp [hn]
    | some field =>
      simp only [admits_ordering ho, hv, Option.bind_some]
      cases field <;> simp [Json.str?, Json.compare?, SqlOrdering.admits_none]
  · simp only [SqlCondition.holds, SqlCondition.valueIn_eq, Clause.accepts]
    cases c.fieldOf item with
    | none => simp [hn]
    | some field =>
      simp only [admits_ordering ho, hv, Option.bind_some]
      cases field <;>
        simp [Json.num?, Json.compare?, Number.compare?, SqlOrdering.admits_none]

/-- The field of a clause on the document is the document's text. -/
theorem fieldOf_document {c : Clause} (ht : c.target = .document) (item : Item) :
    c.fieldOf item = item.document.map Json.str := by
  simp [Clause.fieldOf, ht]

/-- Equality and membership on the document are tests of its text. -/
theorem holds_document {c : Clause} {d : SqlCondition} (item : Item)
    (hord : SqlOrdering.ofOperator? c.operator = none) (ht : c.target = .document)
    (h : lower c = .ok d) : d.holds item = c.accepts item := by
  simp only [Clause.accepts, fieldOf_document ht]
  cases hop : c.operator <;> simp only [hop, SqlOrdering.ofOperator?, reduceCtorEq] at hord <;>
    simp only [lower, hop, ht, Except.ok.injEq] at h <;> subst h <;>
    simp only [SqlCondition.holds, SqlCondition.valueIn, SqlCondition.onDocument,
      Clause.admits, hop] <;>
    cases item.document <;>
    simp [str?_str, Filter.anyElement, Filter.inList, contains_toList_str?,
      contains_filterMap_str?, containsNeedle_eq, Operator.isNegated, -List.contains_eq_mem,
      -List.contains_filterMap]

/-- Equality and membership on metadata are containment. -/
theorem holds_metadata {c : Clause} {d : SqlCondition} {key : String} (item : Item)
    (hord : SqlOrdering.ofOperator? c.operator = none) (ht : c.target = .metadata key)
    (h : lower c = .ok d) : d.holds item = c.accepts item := by
  have hf : c.fieldOf item = Keyed.get? key item.metadata := by simp [Clause.fieldOf, ht]
  simp only [Clause.accepts, hf]
  cases hop : c.operator <;> simp only [hop, SqlOrdering.ofOperator?, reduceCtorEq] at hord <;>
    simp only [lower, hop, ht, Except.ok.injEq] at h <;> subst h <;>
    simp only [SqlCondition.holds, SqlCondition.valueIn, SqlCondition.onDocument,
      Clause.admits, hop, any_jsonContains_eq] <;>
    cases Keyed.get? key item.metadata <;>
    simp [← any_jsonContains_eq, jsonContains_eq, containsNeedle_eq, Operator.isNegated]

/-- **A clause's condition holds in the database exactly when the clause
accepts the item.** -/
theorem holds_lower {c : Clause} {d : SqlCondition} (h : lower c = .ok d) (item : Item) :
    d.holds item = c.accepts item := by
  cases hord : SqlOrdering.ofOperator? c.operator with
  | some o => exact holds_ordering item hord h
  | none =>
    cases ht : c.target with
    | document => exact holds_document item hord ht h
    | metadata key => exact holds_metadata item hord ht h

/-! ## Filter by filter -/

/-- Conditions are combined into their conjunction, and none at all pass
everything. -/
theorem passes_combine (ds : List SqlCondition) (item : Item) :
    passes (if ds.isEmpty then none else some (filterCompiler.combine ds)) item =
      ds.all fun d => d.holds item := by
  cases ds <;> rfl

/-- Nothing is left to the client. -/
theorem residual_eq_empty {f : Filter} {compiled : CompiledFilter SqlWhere}
    (h : filterCompiler.compile f = .ok compiled) : compiled.residual = Filter.empty := by
  obtain ⟨-, ds, -, rfl⟩ := FilterCompiler.compile_eq_ok_iff.1 h
  rw [FilterCompiler.clientSide_of_allServerSide rfl]
  rfl

/-- The conditions of a filter hold of what the filter accepts. -/
theorem passes_native {f : Filter} {compiled : CompiledFilter SqlWhere}
    (h : filterCompiler.compile f = .ok compiled) (item : Item) :
    passes compiled.native item = f.accepts item := by
  obtain ⟨-, ds, hds, rfl⟩ := FilterCompiler.compile_eq_ok_iff.1 h
  rw [FilterCompiler.serverSide_of_allServerSide rfl] at hds
  rw [passes_combine]
  exact FilterCompiler.all_holds_eq hds fun c _ d hd => holds_lower hd item

/-- **The database evaluates compiled filters exactly.** Nothing is left to
the client, and an item passes the SQL conditions, or their absence, exactly
when the filter accepts it. -/
theorem passes_eq_accepts {f : Filter} {compiled : CompiledFilter SqlWhere}
    (h : filterCompiler.compile f = .ok compiled) (item : Item) :
    compiled.residual = Filter.empty ∧ passes compiled.native item = f.accepts item :=
  ⟨residual_eq_empty h, passes_native h item⟩

/-- An item with a list, a null and no `status`, under a negation, a membership
test and a substring test of its document. -/
theorem passes_eq_accepts_of_missing_field :
    let f : Filter := ⟨[⟨"status", .ne, .str "active"⟩,
      ⟨"tags", .isIn, .arr [.str "a", .bool true]⟩, ⟨documentField, .contains, .str "fox"⟩,
      ⟨"owner", .notContains, .str "x"⟩]⟩
    let item : Item :=
      ⟨"1", some "a fox", [("owner", .null), ("tags", .arr [.str "b", .str "a"])], none⟩
    ∃ compiled, filterCompiler.compile f = .ok compiled ∧
      (compiled.residual = Filter.empty ∧ passes compiled.native item = f.accepts item) ∧
      f.accepts item = true :=
  ⟨_, rfl, passes_eq_accepts rfl _, by decide⟩

end Postgres

end VectorBridge
