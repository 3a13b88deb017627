import VectorBridge.Proofs.Postgres.Pushdown
/-!
# Compilation splits a filter

Compiling a filter has three ends. A clause that is not valid fails it, whatever the
backend; then a clause of the backend's that does not lower; of several the first one
gives the error. Otherwise the filter falls into two parts, the lowered clauses of the
backend and the clauses left to the client, each in the order of the filter.

So a backend that evaluates conditions as their clauses, and a fragment as all of its
conditions, selects the items of the filter when the client filters what it returns:
what agrees clause by clause agrees filter by filter.
-/

namespace VectorBridge

/-- The first element of a list that fails a check does so with the error. -/
inductive FirstFailure {α β : Type} (check : α → Result β) : List α → Error → Prop
  | here {x : α} {l : List α} {e : Error} : check x = .error e → FirstFailure check (x :: l) e
  | later {x : α} {l : List α} {e : Error} {b : β} :
      check x = .ok b → FirstFailure check l e → FirstFailure check (x :: l) e

namespace FirstFailure

variable {α β : Type} {check : α → Result β} {x : α} {l : List α} {e : Error}

theorem not_nil : ¬ FirstFailure check [] e := nofun

/-- An element that fails decides. -/
theorem cons_iff_of_error {e' : Error} (h : check x = .error e') :
    FirstFailure check (x :: l) e ↔ e' = e := by
  constructor
  · rintro (h' | ⟨h', -⟩)
    · exact Except.error.inj (h.symm.trans h')
    · cases h.symm.trans h'
  · rintro rfl
    exact .here h

/-- An element that passes decides nothing. -/
theorem cons_iff_of_ok {b : β} (h : check x = .ok b) :
    FirstFailure check (x :: l) e ↔ FirstFailure check l e := by
  constructor
  · rintro (h' | ⟨-, hrest⟩)
    · cases h.symm.trans h'
    · exact hrest
  · exact .later h

/-- What fails first is the failure of an element. -/
theorem exists_mem (h : FirstFailure check l e) : ∃ x ∈ l, check x = .error e := by
  induction h with
  | here h => exact ⟨_, List.mem_cons_self, h⟩
  | later _ _ ih =>
    obtain ⟨x, hx, h⟩ := ih
    exact ⟨x, List.mem_cons_of_mem _ hx, h⟩

/-- Something fails first where something fails. -/
theorem exists_iff : (∃ e, FirstFailure check l e) ↔ ∃ x ∈ l, ∃ e, check x = .error e := by
  constructor
  · rintro ⟨e, h⟩
    obtain ⟨x, hx, h⟩ := h.exists_mem
    exact ⟨x, hx, e, h⟩
  · rintro ⟨x, hx, e, h⟩
    induction l with
    | nil => cases hx
    | cons y l ih =>
      cases hy : check y with
      | error e' => exact ⟨e', .here hy⟩
      | ok b =>
        rcases List.mem_cons.1 hx with rfl | hx
        · cases hy.symm.trans h
        · obtain ⟨e', hrest⟩ := ih hx
          exact ⟨e', .later hy hrest⟩

end FirstFailure

/-- **A filter is refused for its first clause that is not valid.** -/
theorem Filter.validate_eq_error_iff {f : Filter} {e : Error} :
    f.validate = .error e ↔ FirstFailure Clause.validate f.clauses e := by
  rw [validate]
  induction f.clauses with
  | nil => simp [firstError, FirstFailure.not_nil]
  | cons c cs ih =>
    rw [List.map_cons]
    cases hc : c.validate with
    | error e' => rw [firstError, FirstFailure.cons_iff_of_error hc, Except.error.injEq]
    | ok => rw [firstError, FirstFailure.cons_iff_of_ok hc, ih]

namespace FilterCompiler

variable {Condition Fragment : Type} {K : FilterCompiler Condition Fragment} {f : Filter}

/-- Clauses do not lower because of the first one that does not. -/
theorem lowerAll_eq_error_iff {cs : List Clause} {e : Error} :
    K.lowerAll cs = .error e ↔ FirstFailure K.lower cs e := by
  induction cs with
  | nil => simp [lowerAll, FirstFailure.not_nil]
  | cons c cs ih =>
    rw [lowerAll]
    cases hc : K.lower c with
    | error e' => rw [FirstFailure.cons_iff_of_error hc, Except.error.injEq]
    | ok d =>
      rw [FirstFailure.cons_iff_of_ok hc, ← ih]
      cases K.lowerAll cs with
      | error e' => rfl
      | ok ds => simp

/-- **A compilation fails** for the first clause that is not valid, and if all are for
the first of the backend's that does not lower. -/
theorem compile_eq_error_iff {e : Error} :
    K.compile f = .error e ↔ FirstFailure Clause.validate f.clauses e ∨
      (∀ c ∈ f.clauses, c.validate = .ok ()) ∧ FirstFailure K.lower (K.serverSide f) e := by
  rw [← Filter.validate_eq_error_iff, ← Filter.validate_eq_ok_iff, ← lowerAll_eq_error_iff,
    compile]
  cases f.validate with
  | error e' => simp
  | ok =>
    cases K.lowerAll (K.serverSide f) with
    | error e' => simp
    | ok ds => simp

/-- **Both parts together select what the filter accepts**, in order, where fragments
mean all of their conditions and conditions mean their clauses. -/
theorem postFilter_filter_native {compiled : CompiledFilter Fragment}
    (h : K.compile f = .ok compiled) {eval : Fragment → Item → Bool}
    {holds : Condition → Item → Bool} {items : List Item}
    (hcombine : ∀ ds ≠ [], ∀ item ∈ items, eval (K.combine ds) item = ds.all (holds · item))
    (hlower : ∀ c ∈ f.clauses, c.validate = .ok () → K.capabilities.isServerSide c = true →
      ∀ d, K.lower c = .ok d → ∀ item ∈ items, holds d item = c.accepts item) :
    compiled.postFilter (items.filter fun item => compiled.native.all (eval · item)) =
      items.filter f.accepts := by
  obtain ⟨hvalid, ds, hds, rfl⟩ := compile_eq_ok_iff.1 h
  rw [CompiledFilter.postFilter, List.filter_filter]
  refine List.filter_congr fun item hitem => ?_
  have hnative : (if ds.isEmpty then none else some (K.combine ds)).all (eval · item) =
      ds.all (holds · item) := by
    cases ds with
    | nil => rfl
    | cons d ds => exact hcombine (d :: ds) (List.cons_ne_nil d ds) item hitem
  rw [hnative, Bool.and_comm]
  exact all_holds_and_residual_eq hds item
    (fun c hc hs d hd => hlower c hc (hvalid c hc) hs d hd item hitem) fun _ _ _ => rfl

/-- **Compilation is an exact split that keeps order**, for any table of capabilities,
any lowering and any combination. It fails with the first clause that is not valid or
else with the first of the backend's that does not lower. Otherwise the fragment combines
exactly the backend's clauses, lowered, and the residual is exactly the other clauses; and
evaluating the one and then the other selects the items that the filter accepts, wherever
that is so of single clauses. -/
theorem compile_splits_exactly (K : FilterCompiler Condition Fragment) (f : Filter) :
    (∀ e, K.compile f = .error e ↔
      FirstFailure Clause.validate f.clauses e ∨
        (∀ c ∈ f.clauses, c.validate = .ok ()) ∧
          FirstFailure K.lower (f.clauses.filter K.capabilities.isServerSide) e) ∧
    (∀ compiled, K.compile f = .ok compiled ↔
      (∀ c ∈ f.clauses, c.validate = .ok ()) ∧
        ∃ ds, List.Forall₂ (fun c d => K.lower c = .ok d)
            (f.clauses.filter K.capabilities.isServerSide) ds ∧
          compiled.native = (if ds.isEmpty then none else some (K.combine ds)) ∧
          compiled.residual.clauses = f.clauses.filter fun c => !K.capabilities.isServerSide c) ∧
    ∀ (eval : Fragment → Item → Bool) (holds : Condition → Item → Bool) (items : List Item)
      (compiled : CompiledFilter Fragment), K.compile f = .ok compiled →
      (∀ ds ≠ [], ∀ item ∈ items, eval (K.combine ds) item = ds.all (holds · item)) →
      (∀ c ∈ f.clauses, c.validate = .ok () → K.capabilities.isServerSide c = true →
        ∀ d, K.lower c = .ok d → ∀ item ∈ items, holds d item = c.accepts item) →
      compiled.postFilter (items.filter fun item => compiled.native.all (eval · item)) =
        items.filter f.accepts := by
  refine ⟨fun e => compile_eq_error_iff, fun compiled => ?_,
    fun eval holds items compiled h hcombine hlower =>
      postFilter_filter_native h hcombine hlower⟩
  rw [compile_eq_ok_iff]
  refine and_congr_right fun _ => exists_congr fun ds => and_congr_right fun _ => ?_
  obtain ⟨native, clauses⟩ := compiled
  rw [CompiledFilter.mk.injEq, Filter.mk.injEq]
  rfl

/-- SQL conditions with substring tests of metadata left to the client: an equality and a
membership test are evaluated by the database, the substring test between them is not. -/
theorem compile_splits_exactly_of_sql :
    let K : FilterCompiler Postgres.SqlCondition Postgres.SqlWhere :=
      { Postgres.filterCompiler with
        capabilities := Capabilities.allServerSide.setMetadata .contains false }
    let f : Filter := ⟨[⟨"status", .eq, .str "active"⟩, ⟨"title", .contains, .str "fox"⟩,
      ⟨"tags", .isIn, .arr [.str "a", .bool true]⟩]⟩
    let hen : Item := ⟨"1", none, [("status", .str "active"), ("tags", .arr [.str "a"]),
      ("title", .str "a hen")], none⟩
    let fox : Item := ⟨"2", none, [("status", .str "active"), ("tags", .arr [.str "a"]),
      ("title", .str "a fox")], none⟩
    ∃ compiled, K.compile f = .ok compiled ∧
      compiled.postFilter ([hen, fox].filter fun item => compiled.native.all (·.holds item)) =
        [hen, fox].filter f.accepts ∧
      (∀ item ∈ [hen, fox], compiled.native.all (·.holds item) = true) ∧
      compiled.residual.clauses.length = 1 ∧ f.accepts hen = false ∧ f.accepts fox = true := by
  intro K f hen fox
  refine ⟨_, rfl, ?_, by decide, rfl, by decide, by decide⟩
  exact (compile_splits_exactly K f).2.2 Postgres.SqlWhere.holds Postgres.SqlCondition.holds _ _
    rfl (fun _ _ _ _ => rfl) fun c _ _ _ d hd item _ => Postgres.holds_lower hd item

end FilterCompiler

end VectorBridge
