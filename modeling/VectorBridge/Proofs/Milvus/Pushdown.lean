import VectorBridge.Proofs.Filter.Matching
import VectorBridge.Proofs.Milvus.Keys
/-!
# Expressions see whole rows

A comparison of an expression tests a field of a row as its clause tests the
field of an item, so the two differ only where the row and the item read back of
it do. A row holds its key and its vector beside the metadata, and an empty
document where the item has none; reading takes all of these off
(`Schema.hides`). The main statement is that an expression and its residual hold
as the clauses accept the item, and of nothing less: the server may find a
clause in a field that is hidden.
-/

namespace VectorBridge

namespace Milvus

/-! ## Literals -/

mutual

/-- A literal stands for the value that it was made of. -/
theorem Literal.toJson_of_ofJson? {v : Json} {l : Literal} (h : ofJson? v = some l) :
    l.toJson = v := by
  match v with
  | .str s => cases h; rfl
  | .num n => cases h; rfl
  | .bool b => cases h; rfl
  | .arr elems =>
    obtain ⟨ls, hls, rfl⟩ := Option.map_eq_some_iff.1 h
    rw [toJson, Literal.listToJson_of_ofList? hls]

theorem Literal.listToJson_of_ofList? {vs : List Json} {ls : List Literal}
    (h : ofList? vs = some ls) : listToJson ls = vs := by
  match vs with
  | [] => cases h; rfl
  | v :: rest =>
    simp only [ofList?, Option.bind_eq_bind, Option.bind_eq_some_iff, Option.some.injEq] at h
    obtain ⟨l, hl, ls, hls, rfl⟩ := h
    rw [listToJson, Literal.toJson_of_ofJson? hl, Literal.listToJson_of_ofList? hls]

end

/-! ## Clause by clause -/

variable {c : Clause} {t : Term} {row : Row} {S : Schema}

theorem isServerSide_eq (c : Clause) :
    filterCompiler.capabilities.isServerSide c = !residualOperators.contains c.operator := by
  rw [filterCompiler, Capabilities.isServerSide_without, Capabilities.isServerSide_allServerSide,
    Bool.true_and]

/-- What the server evaluates is no negation. -/
theorem isNegated_of_serverSide (hs : filterCompiler.capabilities.isServerSide c = true) :
    c.operator.isNegated = false := by
  rw [isServerSide_eq] at hs
  cases hop : c.operator <;> simp_all [residualOperators, Operator.isNegated]

/-- Which comparison a clause lowers to: the document is compared whole, and
metadata by its elements as well. -/
theorem ofOperator?_fieldOf (c : Clause) :
    Op.ofOperator? c.operator (fieldOf c) =
      match c.operator with
      | .eq => some (if c.onDocument then .eq else .matchesOne)
      | .gt => some .gt
      | .gte => some .gte
      | .lt => some .lt
      | .lte => some .lte
      | .isIn => some (if c.onDocument then .isIn else .matchesAny)
      | .ne | .notIn | .contains | .notContains => none := by
  by_cases hd : c.field = documentField <;> cases hop : c.operator <;>
    simp [fieldOf, Clause.target, Clause.onDocument, hd, Op.ofOperator?]

/-- What a clause lowers to. -/
theorem lower_eq_ok (h : lower c = .ok t) :
    t.field.name = c.field ∧ t.value.toJson = c.value ∧
      Op.ofOperator? c.operator (fieldOf c) = some t.op := by
  unfold lower at h
  split at h
  · cases h
  · rename_i op hop
    split at h
    · cases h
    · rename_i value hvalue
      obtain rfl := Except.ok.inj h
      refine ⟨?_, Literal.toJson_of_ofJson? hvalue, hop⟩
      by_cases hd : c.field = documentField <;> simp [fieldOf, Clause.target, hd, Field.name]
      rfl

/-- Whether a row's field passes the test of a clause; the document is compared
whole and not by its elements. -/
def compares (c : Clause) (v : Json) : Bool := c.meets v && !(c.onDocument && v.arr?.isSome)

/-- A list passes no order comparison, so there is nothing to be left out. -/
theorem compares_of_isRange (ho : c.operator.isRange = true) (v : Json) :
    compares c v = c.meets v := by
  cases v with
  | arr elems => rw [compares, Clause.meets_arr_of_isRange ho, Bool.false_and]
  | _ => simp [compares, Json.arr?]

/-- Equality and membership are tests of the value alone on the document, and of
its elements too on metadata. -/
theorem compares_of_not_isRange (hv : c.validate = .ok ()) (hr : c.operator.isRange = false)
    (hi : c.operator.asksInside = false) (v : Json) :
    compares c v =
      if c.onDocument then c.meetsWhole v else (c.meetsWhole v || (elements v).any c.meetsWhole) := by
  rw [compares, Clause.meets_eq_anyElement hr hi]
  cases v with
  | arr elems =>
    have harr : c.meetsWhole (.arr elems) = false := Clause.meetsWhole_of_not_isScalar hv hi rfl
    cases c.onDocument <;> simp [elements, Filter.anyElement, Json.arr?, harr]
  | _ => cases c.onDocument <;> simp [elements, Filter.anyElement, Json.arr?]

/-- **A term holds** when the field is there and passes the clause's test. -/
theorem holds_lower (hv : c.validate = .ok ()) (h : lower c = .ok t) (row : Row) :
    t.holds row = (Keyed.get? c.field row).any (compares c) := by
  obtain ⟨hname, hvalue, hop⟩ := lower_eq_ok h
  rw [ofOperator?_fieldOf] at hop
  rw [Term.holds, hname]
  cases Keyed.get? c.field row with
  | none => rfl
  | some v =>
    simp only [hvalue, Option.any_some]
    have hcompares := compares_of_not_isRange hv (v := v)
    have hlist := Clause.value_eq_arr_list hv
    unfold Clause.meetsWhole at hcompares
    cases ho : c.operator <;> rw [ho] at hop <;> simp only [ho] at hcompares hlist
    case eq =>
      rw [hcompares rfl rfl, ← Option.some.inj hop]
      cases c.onDocument <;> rfl
    case isIn =>
      rw [hcompares rfl rfl, ← Option.some.inj hop, hlist rfl]
      cases c.onDocument <;> rfl
    case gt | gte | lt | lte =>
      rw [compares_of_isRange (by rw [ho]; rfl), Clause.meets, ho, ← Option.some.inj hop]
    all_goals cases hop

/-! ## Rows read back -/

/-- Whether a row's field is not read back as a field of the item: the key, the id
kept beside it, the vector, and a document that is empty or no text. -/
def Schema.hides (S : Schema) (field : String) (v : Json) : Bool :=
  S.primaryField = field || givenIdKey = field ||
    if documentFieldName = field then !v.str?.any fun d => !d.isEmpty else S.vectorField = field

theorem Schema.hides_document (S : Schema) (v : Json) :
    S.hides documentFieldName v =
      (decide (S.primaryField = documentFieldName) || !v.str?.any fun d => !d.isEmpty) := by
  simp [Schema.hides, document_ne_given.symm]

theorem Schema.hides_of_ne_document {field : String} (hd : documentFieldName ≠ field) (v : Json) :
    S.hides field v =
      (decide (S.primaryField = field) || decide (givenIdKey = field) ||
        decide (S.vectorField = field)) := by
  rw [Schema.hides, if_neg hd]

/-- **A clause looks at a row's item** through the row, hidden fields left out. -/
theorem fieldOf_itemOf (S : Schema) (c : Clause) (row : Row) :
    c.fieldOf (itemOf S row) = (Keyed.get? c.field row).filter fun v => !S.hides c.field v := by
  by_cases hd : c.field = documentFieldName
  · have ht : c.target = .document := if_pos hd
    simp only [Clause.fieldOf, ht, itemOf, hd, Schema.hides_document, Keyed.get?_erase]
    by_cases hp : S.primaryField = documentFieldName
    · cases Keyed.get? documentFieldName row <;> simp [hp, Option.filter]
    · simp only [hp, if_false, decide_false, Bool.false_or, Bool.not_not]
      cases Keyed.get? documentFieldName row with
      | none => rfl
      | some v =>
        cases v with
        | str d => cases hempty : d.isEmpty <;> simp [Json.str?, hempty, Option.filter]
        | _ => simp [Json.str?, Option.filter]
  · have ht : c.target = .metadata c.field := if_neg hd
    simp only [Clause.fieldOf, ht, itemOf, IdKind.recover_snd, Keyed.get?_erase,
      if_neg (Ne.symm hd), Schema.hides_of_ne_document (Ne.symm hd)]
    by_cases hg : givenIdKey = c.field <;> by_cases hvec : S.vectorField = c.field <;>
      by_cases hp : S.primaryField = c.field <;>
      cases Keyed.get? c.field row <;> simp [hg, hvec, hp, Option.filter]

/-- A field that is read back is compared as the clause tests it. -/
theorem compares_of_shown {v : Json} (h : S.hides c.field v = false) :
    compares c v = c.meets v := by
  by_cases hd : c.field = documentFieldName
  · rw [hd, Schema.hides_document, Bool.or_eq_false_iff] at h
    cases v with
    | str d => simp [compares, Json.arr?]
    | _ => simp [Json.str?] at h
  · have hdoc : c.onDocument = false := decide_eq_false hd
    rw [compares, hdoc, Bool.false_and, Bool.not_false, Bool.and_true]

/-- Whether the server finds a clause in a row's field that the item does not
show. -/
def Schema.findsHidden (S : Schema) (c : Clause) (row : Row) : Bool :=
  filterCompiler.capabilities.isServerSide c &&
    (Keyed.get? c.field row).any fun v => S.hides c.field v && compares c v

/-- A term holds of a row as its clause accepts the item, or in a hidden field. -/
theorem holds_lower_eq (hs : filterCompiler.capabilities.isServerSide c = true)
    (hv : c.validate = .ok ()) (h : lower c = .ok t) (S : Schema) (row : Row) :
    t.holds row = (c.accepts (itemOf S row) || S.findsHidden c row) := by
  rw [holds_lower hv h, Clause.accepts_eq, isNegated_of_serverSide hs, fieldOf_itemOf,
    Option.any_filter, Schema.findsHidden, hs, Bool.true_and, Bool.false_xor]
  cases Keyed.get? c.field row with
  | none => rfl
  | some v =>
    simp only [Option.any_some]
    cases hh : S.hides c.field v with
    | true => simp
    | false => simp [compares_of_shown hh]

/-! ## Filter by filter -/

/-- An expression holds when its terms do, and its absence of everything. -/
theorem passes_combine (ts : List Term) (row : Row) :
    passes (if ts.isEmpty then none else some (filterCompiler.combine ts)) row =
      ts.all fun t => t.holds row := by
  cases ts <;> rfl

/-- The stored document is the item's, empty when there is none. -/
theorem get?_document_rowOf {item : Item} {m : MappedId} (h : rowOf S item m = .ok row)
    (hvec : S.vectorField ≠ documentFieldName) :
    Keyed.get? documentFieldName row = some (.str (item.document.getD "")) := by
  rw [rowOf] at h
  split at h
  · cases h
  · obtain rfl := Except.ok.inj h
    split
    · rw [Keyed.get?_insert_of_ne document_ne_given.symm, Keyed.get?_insert_of_ne hvec,
        Keyed.get?_insert_self]
    · rw [Keyed.get?_insert_of_ne hvec, Keyed.get?_insert_self]

theorem findsHidden_of_hides_eq_false
    (hshown : ∀ v, Keyed.get? c.field row = some v → S.hides c.field v = false) :
    S.findsHidden c row = false := by
  rw [Schema.findsHidden, Bool.and_eq_false_iff]
  refine .inr ?_
  cases hget : Keyed.get? c.field row with
  | none => rfl
  | some v => rw [Option.any_some, hshown v hget, Bool.false_and]

/-- The fields of a row that items do not show, or show as a document. -/
def Schema.hidden (S : Schema) : List String :=
  [S.primaryField, S.vectorField, givenIdKey, documentFieldName]

/-- Off these fields nothing is found that the item does not show. -/
theorem findsHidden_of_not_mem_hidden (hfield : c.field ∉ S.hidden) (row : Row) :
    S.findsHidden c row = false := by
  obtain ⟨hp, hvec, hg, hd⟩ : S.primaryField ≠ c.field ∧ S.vectorField ≠ c.field ∧
      givenIdKey ≠ c.field ∧ documentFieldName ≠ c.field := by
    simpa [Schema.hidden, eq_comm] using hfield
  exact findsHidden_of_hides_eq_false fun v _ => by
    simp [Schema.hides_of_ne_document hd, hp, hvec, hg]

/-- Off the fields that reading takes away, and on a document that is there, nothing
is found that the item does not show. -/
theorem findsHidden_of_shown {item : Item} {m : MappedId} (h : rowOf S item m = .ok row)
    (hfield : c.field ∉ [S.primaryField, S.vectorField, givenIdKey])
    (hdocument : c.field = documentFieldName → item.document.getD "" ≠ "") :
    S.findsHidden c row = false := by
  obtain ⟨hp, hvec, hg⟩ : S.primaryField ≠ c.field ∧ S.vectorField ≠ c.field ∧
      givenIdKey ≠ c.field := by simpa [eq_comm] using hfield
  refine findsHidden_of_hides_eq_false fun v hget => ?_
  by_cases hd : documentFieldName = c.field
  · rw [← hd] at hget hp hvec ⊢
    rw [get?_document_rowOf h hvec] at hget
    obtain rfl := Option.some.inj hget
    simp [Schema.hides_document, hp, Json.str?, hdocument hd.symm]
  · simp [Schema.hides_of_ne_document hd, hp, hvec, hg]

/-- The expression and the residual pass a row when every clause accepts the item it is read
as, or is found by the server in what that item does not show. -/
theorem holds_and_residual_eq {f : Filter} {compiled : CompiledFilter Expr}
    (h : filterCompiler.compile f = .ok compiled) (S : Schema) (row : Row) :
    (passes compiled.native row && compiled.residual.accepts (itemOf S row)) =
      f.clauses.all fun c => c.accepts (itemOf S row) || S.findsHidden c row := by
  obtain ⟨hv, ts, hts, rfl⟩ := FilterCompiler.compile_eq_ok_iff.1 h
  exact passes_combine ts row ▸ FilterCompiler.all_holds_and_residual_eq hts (itemOf S row)
    (fun c hc hs t ht => holds_lower_eq hs (hv c hc) ht S row)
    (fun c hc hs => by rw [Schema.findsHidden, hs, Bool.false_and, Bool.or_false])

/-- **Expressions on stored rows.** The expression and the residual together pass
the row of an item when every clause accepts the item read back, or is found by the
server in a field of the row that the item does not show. So they are exact when
what the server evaluates names neither the key, the vector nor the kept id, and
the document only where the item has one. -/
theorem passes_rowOf_eq {f : Filter} {compiled : CompiledFilter Expr} {item : Item} {m : MappedId}
    (h : filterCompiler.compile f = .ok compiled) (hrow : rowOf S item m = .ok row) :
    let shown := itemOf S row
    ((passes compiled.native row && compiled.residual.accepts shown) =
      f.clauses.all fun c => c.accepts shown || S.findsHidden c row) ∧
    ((∀ c ∈ f.clauses, filterCompiler.capabilities.isServerSide c = true →
        c.field ∉ [S.primaryField, S.vectorField, givenIdKey] ∧
          (c.field = documentFieldName → item.document.getD "" ≠ "")) →
      (passes compiled.native row && compiled.residual.accepts shown) = f.accepts shown) := by
  intro shown
  have heq := holds_and_residual_eq h S row
  refine ⟨heq, fun hshown => heq.trans (Filter.all_eq_accepts fun c hc => ?_)⟩
  cases hs : filterCompiler.capabilities.isServerSide c with
  | false => rw [Schema.findsHidden, hs, Bool.false_and, Bool.or_false]
  | true => rw [findsHidden_of_shown hrow (hshown c hc hs).1 (hshown c hc hs).2, Bool.or_false]

/-- A row with a document and a list, under an order of the document, a membership
test of the list, and a negation that is left to the client. -/
theorem passes_rowOf_eq_of_kept_document :
    let f : Filter := ⟨[⟨documentField, .gt, .str "a"⟩, ⟨"tags", .isIn, .arr [.str "a", .bool true]⟩,
      ⟨"id", .ne, .str "1"⟩]⟩
    let item : Item := ⟨"1", some "fox", [("tags", .arr [.str "b", .str "a"])], some []⟩
    ∃ compiled row, filterCompiler.compile f = .ok compiled ∧
      rowOf Schema.plain item ⟨.string "1", false⟩ = .ok row ∧
      (∀ c ∈ f.clauses, filterCompiler.capabilities.isServerSide c = true →
        c.field ∉ [Schema.plain.primaryField, Schema.plain.vectorField, givenIdKey] ∧
          (c.field = documentFieldName → item.document.getD "" ≠ "")) ∧
      (passes compiled.native row && compiled.residual.accepts (itemOf Schema.plain row)) =
        f.accepts (itemOf Schema.plain row) ∧
      f.accepts (itemOf Schema.plain row) = true := by
  intro f item
  have hshown : ∀ c ∈ f.clauses, filterCompiler.capabilities.isServerSide c = true →
      c.field ∉ [Schema.plain.primaryField, Schema.plain.vectorField, givenIdKey] ∧
        (c.field = documentFieldName → item.document.getD "" ≠ "") := by decide
  exact ⟨_, _, rfl, rfl, hshown, (passes_rowOf_eq rfl rfl).2 hshown, by decide⟩

/-- The row of an item without a document passes an order of the document, which
the item read back does not have. -/
theorem passes_rowOf_ne_of_missing_document :
    ∃ (f : Filter) (compiled : CompiledFilter Expr) (item : Item) (row : Row),
      filterCompiler.compile f = .ok compiled ∧
        rowOf Schema.plain item ⟨.string item.id, false⟩ = .ok row ∧
        (passes compiled.native row && compiled.residual.accepts (itemOf Schema.plain row)) = true ∧
        f.accepts (itemOf Schema.plain row) = false :=
  ⟨⟨[⟨documentField, .lt, .str "m"⟩]⟩, _, ⟨"1", none, [], some []⟩, _, rfl, rfl,
    by decide, by decide⟩

end Milvus

end VectorBridge
