import Mathlib.Data.List.Forall2
import VectorBridge.Filter.Compiler
/-!
# What a successful compilation says

A filter compiles when every clause is valid and every clause of the
backend's lowers; which clauses these are is read off its table. The two parts
then make up the filter again. A backend whose conditions agree with a test of
their clauses evaluates its part as that test (`all_holds_eq`), and the residual is
the rest by definition; for an exact backend the test is that the clause accepts
the item.
-/

namespace VectorBridge

namespace Filter

theorem firstError_eq_ok_iff {l : List (Result Unit)} :
    firstError l = .ok () ↔ ∀ r ∈ l, r = .ok () := by
  induction l with
  | nil => simp [firstError]
  | cons r rest ih =>
    match r with
    | .ok () => simp [firstError, ih]
    | .error e => simp [firstError]

theorem validate_eq_ok_iff {f : Filter} :
    f.validate = .ok () ↔ ∀ c ∈ f.clauses, c.validate = .ok () := by
  simp [validate, firstError_eq_ok_iff]

/-- A filter accepts what tests that agree with its clauses hold of together. -/
theorem all_eq_accepts {f : Filter} {item : Item} {test : Clause → Bool}
    (h : ∀ c ∈ f.clauses, test c = c.accepts item) : f.clauses.all test = f.accepts item := by
  rw [accepts, Bool.eq_iff_iff, List.all_eq_true, List.all_eq_true]
  exact forall₂_congr fun c hc => by rw [h c hc]

end Filter

namespace Clause

/-- A valid clause has an operand that suits its operator. -/
theorem operandOk_of_validate {c : Clause} (h : c.validate = .ok ()) : c.operandOk = true := by
  unfold validate at h
  split at h
  · cases h
  · split at h
    · assumption
    · cases h

/-- The candidates of a valid membership test are a list of scalars. -/
theorem isScalar_of_mem_list {c : Clause} (h : c.validate = .ok ())
    (ho : c.operator.takesList = true) : ∀ j ∈ c.list, isScalar j = true := by
  have hok := operandOk_of_validate h
  unfold operandOk at hok
  rw [if_pos ho] at hok
  intro j hj
  cases hv : c.value with
  | arr elems =>
    simp only [hv, List.all_eq_true] at hok
    simp only [list, hv] at hj
    exact hok j hj
  | _ => simp [list, hv] at hj

/-- The operand of a valid comparison that takes no list is a scalar. -/
theorem isScalar_of_validate {c : Clause} (h : c.validate = .ok ())
    (ho : c.operator.takesList = false) : isScalar c.value = true := by
  have hok := operandOk_of_validate h
  rw [operandOk, ho, if_neg Bool.false_ne_true] at hok
  split at hok
  · cases hvalue : c.value <;> simp_all [isOrdered, isScalar]
  · exact hok

end Clause

namespace Capabilities

theorem isServerSide_allServerSide (c : Clause) : allServerSide.isServerSide c = true := by
  rw [isServerSide]
  split <;> rfl

theorem isServerSide_allResidual (c : Clause) : allResidual.isServerSide c = false := by
  rw [isServerSide]
  split <;> rfl

/-- Operators that are left to the client, on metadata and document alike, are taken out
of the table. -/
theorem isServerSide_without (t : Capabilities) (ops : List Operator) (c : Clause) :
    (ops.foldl (fun t o => (t.setMetadata o false).setDocument o false) t).isServerSide c =
      (t.isServerSide c && !ops.contains c.operator) := by
  induction ops generalizing t with
  | nil => simp
  | cons o ops ih =>
    rw [List.foldl_cons, ih]
    by_cases ho : c.operator = o <;>
      simp [isServerSide, setMetadata, setDocument, ho]

end Capabilities

namespace FilterCompiler

variable {Condition Fragment : Type} {K : FilterCompiler Condition Fragment}

theorem lowerAll_eq_ok_iff {cs : List Clause} {ds : List Condition} :
    K.lowerAll cs = .ok ds ↔ List.Forall₂ (fun c d => K.lower c = .ok d) cs ds := by
  induction cs generalizing ds with
  | nil => cases ds <;> simp [lowerAll]
  | cons c cs ih =>
    constructor
    · intro h
      simp only [lowerAll] at h
      cases hc : K.lower c with
      | error e => simp [hc] at h
      | ok d =>
        cases hcs : K.lowerAll cs with
        | error e => simp [hc, hcs] at h
        | ok rest =>
          simp only [hc, hcs, Except.ok.injEq] at h
          exact h ▸ .cons hc (ih.1 hcs)
    · rintro (_ | ⟨hc, hcs⟩)
      simp [lowerAll, hc, ih.2 hcs]

/-- **A compilation succeeds exactly when** every clause is valid and every
clause of the backend's lowers; it then says what both parts are. -/
theorem compile_eq_ok_iff {f : Filter} {compiled : CompiledFilter Fragment} :
    K.compile f = .ok compiled ↔
      (∀ c ∈ f.clauses, c.validate = .ok ()) ∧
      ∃ ds, List.Forall₂ (fun c d => K.lower c = .ok d) (K.serverSide f) ds ∧
        compiled = ⟨if ds.isEmpty then none else some (K.combine ds), ⟨K.clientSide f⟩⟩ := by
  rw [← Filter.validate_eq_ok_iff]
  unfold compile
  cases hv : f.validate with
  | error e => simp
  | ok u =>
    cases hl : K.lowerAll (K.serverSide f) with
    | error e =>
      simp only [reduceCtorEq, true_and, false_iff, not_exists, not_and, ← lowerAll_eq_ok_iff, hl]
      exact fun _ h => absurd h (by simp)
    | ok ds =>
      simp only [Except.ok.injEq, true_and, ← lowerAll_eq_ok_iff, hl]
      constructor
      · exact fun h => ⟨ds, rfl, h.symm⟩
      · rintro ⟨_, rfl, rfl⟩
        rfl

/-- The two parts of a filter make up the filter, whatever is tested of its
clauses. -/
theorem all_eq_parts (K : FilterCompiler Condition Fragment) (f : Filter) (test : Clause → Bool) :
    f.clauses.all test = ((K.serverSide f).all test && (K.clientSide f).all test) := by
  simp only [serverSide, clientSide]
  induction f.clauses with
  | nil => rfl
  | cons c cs ih =>
    simp only [List.all_cons, List.filter_cons, ih]
    cases K.capabilities.isServerSide c <;> simp [Bool.and_assoc, Bool.and_left_comm]

/-- A filter accepts what both of its parts accept. -/
theorem accepts_eq_parts (K : FilterCompiler Condition Fragment) (f : Filter) (item : Item) :
    f.accepts item =
      ((K.serverSide f).all (·.accepts item) && Filter.accepts ⟨K.clientSide f⟩ item) :=
  K.all_eq_parts f _

/-- A backend that evaluates everything takes every clause. -/
theorem serverSide_of_allServerSide (hK : K.capabilities = .allServerSide) (f : Filter) :
    K.serverSide f = f.clauses := by
  simp [serverSide, hK, Capabilities.isServerSide_allServerSide]

/-- A backend that evaluates everything leaves no clause to the client. -/
theorem clientSide_of_allServerSide (hK : K.capabilities = .allServerSide) (f : Filter) :
    K.clientSide f = [] := by
  simp [clientSide, hK, Capabilities.isServerSide_allServerSide]

/-- So what it compiles is complete. -/
theorem isComplete_of_allServerSide (hK : K.capabilities = .allServerSide) {filter : Option Filter}
    {compiled : CompiledFilter Fragment} (h : K.compile? filter = .ok compiled) :
    compiled.isComplete = true := by
  cases filter with
  | none =>
    cases h
    rfl
  | some f =>
    obtain ⟨-, ds, -, rfl⟩ := compile_eq_ok_iff.1 h
    rw [CompiledFilter.isComplete, clientSide_of_allServerSide hK]
    rfl

/-- Conditions that agree with a test of their clauses hold together exactly when
the test does of every clause. -/
theorem all_holds_eq {holds : Condition → Bool} {test : Clause → Bool} {cs : List Clause}
    {ds : List Condition} (hl : List.Forall₂ (fun c d => K.lower c = .ok d) cs ds)
    (hexact : ∀ c ∈ cs, ∀ d, K.lower c = .ok d → holds d = test c) :
    ds.all holds = cs.all test := by
  induction hl with
  | nil => rfl
  | @cons c d cs ds hc _ ih =>
    rw [List.all_cons, List.all_cons, hexact c (by simp) d hc,
      ih fun c' hc' => hexact c' (List.mem_cons_of_mem _ hc')]

/-- **Native conditions and residual together** are a test of every clause, when
the conditions agree with it on the backend's clauses and the semantics on the
client's. -/
theorem all_holds_and_residual_eq {holds : Condition → Bool} {test : Clause → Bool}
    {f : Filter} {ds : List Condition}
    (hl : List.Forall₂ (fun c d => K.lower c = .ok d) (K.serverSide f) ds) (item : Item)
    (hserver : ∀ c ∈ f.clauses, K.capabilities.isServerSide c = true →
      ∀ d, K.lower c = .ok d → holds d = test c)
    (hclient : ∀ c ∈ f.clauses, K.capabilities.isServerSide c = false →
      c.accepts item = test c) :
    (ds.all holds && Filter.accepts ⟨K.clientSide f⟩ item) = f.clauses.all test := by
  have hresidual : Filter.accepts ⟨K.clientSide f⟩ item = (K.clientSide f).all test := by
    refine (Filter.all_eq_accepts (f := ⟨K.clientSide f⟩) fun c hc => ?_).symm
    obtain ⟨hmem, hside⟩ := List.mem_filter.1 hc
    exact (hclient c hmem (by simpa using hside)).symm
  rw [K.all_eq_parts, hresidual, all_holds_eq hl fun c hc => ?_]
  obtain ⟨hmem, hside⟩ := List.mem_filter.1 hc
  exact hserver c hmem hside

/-- What is left to the backend alone leaves it a fragment, unless the filter
has no clauses. -/
theorem native_of_isComplete {f : Filter} {compiled : CompiledFilter Fragment}
    (h : K.compile f = .ok compiled) (hcomplete : compiled.isComplete = true)
    (hf : f.isEmpty = false) : ∃ native, compiled.native = some native := by
  obtain ⟨-, ds, hds, rfl⟩ := compile_eq_ok_iff.1 h
  have hclient : K.clientSide f = [] := List.isEmpty_iff.1 hcomplete
  have hserver : K.serverSide f = f.clauses := by
    refine List.filter_eq_self.2 fun c hc => ?_
    simpa using List.filter_eq_nil_iff.1 hclient c hc
  rw [hserver] at hds
  rw [Filter.isEmpty] at hf
  generalize f.clauses = cs at hds hf
  cases hds with
  | nil => cases hf
  | cons => exact ⟨_, rfl⟩

end FilterCompiler

end VectorBridge
