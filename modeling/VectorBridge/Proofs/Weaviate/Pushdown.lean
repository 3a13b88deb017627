import VectorBridge.Proofs.Filter.Matching
import VectorBridge.Proofs.Identifier
import VectorBridge.Weaviate.Memory
import VectorBridge.Weaviate.Store
/-!
# Where-filters look into lists

An operand is typed before it is sent, and its numbers become binary64 values;
since values are compared as such, a typed operand stands for the one it was made
of. Conjunctions are flattened, and a property that is missing or null only differs
from everything, as in the semantics. Two things are left that a where-filter finds
and the semantics does not: an order of an element of a list, and the id of an item
that is kept as a property. The main statement is exact about both.
-/

namespace VectorBridge

namespace Weaviate

/-! ## Operands -/

/-- A value that compares as another one does. -/
def Alike (a b : Json) : Prop :=
  (∀ v : Json, v.looseEq a = v.looseEq b) ∧ ∀ v : Json, v.compare? a = v.compare? b

theorem Alike.rfl {a : Json} : Alike a a := ⟨fun _ => Eq.refl _, fun _ => Eq.refl _⟩

/-- Whether a number, if the value is one, is finite, as all numbers of JSON are. -/
def isFinite : Json → Bool
  | .num n => Binary64.isFinite n.toFloat
  | _ => true

/-- Whether the numbers of an operand are finite. -/
def operandFinite (c : Clause) : Bool := isFinite c.value && c.list.all isFinite

/-- A finite number is alike to its binary64 value. -/
theorem alike_ofFloat {n : Number} (h : isFinite (.num n) = true) :
    Alike (.ofFloat n.toFloat) (.num n) := by
  have hfinite : Json.ofFloat n.toFloat = .num (.flt n.toFloat) := if_pos h
  rw [hfinite]
  constructor <;> intro v <;> cases v <;> rfl

/-- The operand of a scalar stands for it. -/
theorem alike_of_isScalar {v : Json} {operand : Operand} (hs : Clause.isScalar v = true)
    (hfinite : isFinite v = true) (h : Operand.ofJson? v = some operand) :
    Alike operand.toJson v := by
  cases v with
  | str s => cases h; exact .rfl
  | bool b => cases h; exact .rfl
  | num n => cases h; exact alike_ofFloat hfinite
  | _ => cases hs

/-- A list that is read element by element stands for its elements. -/
theorem forall₂_alike_of_mapM {α : Type} {read : Json → Option α} {write : α → Json}
    (hread : ∀ v a, isFinite v = true → read v = some a → Alike (write a) v) {vs : List Json}
    {as : List α} (hfinite : vs.all isFinite = true) (h : vs.mapM read = some as) :
    List.Forall₂ Alike (as.map write) vs := by
  induction vs generalizing as with
  | nil =>
    cases h
    exact .nil
  | cons v vs ih =>
    rw [List.all_cons, Bool.and_eq_true] at hfinite
    rw [List.mapM_cons] at h
    simp only [Option.bind_eq_bind, Option.bind_eq_some_iff, Option.pure_def,
      Option.some.injEq] at h
    obtain ⟨a, ha, as, has, rfl⟩ := h
    exact .cons (hread v a hfinite.1 ha) (ih hfinite.2 has)

/-- The operand of a list stands for its elements. -/
theorem forall₂_alike_of_list {vs : List Json} {operand : Operand}
    (hfinite : vs.all isFinite = true) (h : Operand.ofJson? (.arr vs) = some operand) :
    ∃ ws, operand.toJson = .arr ws ∧ List.Forall₂ Alike ws vs := by
  have hnumber : ∀ v x, isFinite v = true → number? v = some x → Alike (.ofFloat x) v := by
    intro v x hv hx
    cases v with
    | num n => cases hx; exact alike_ofFloat hv
    | _ => cases hx
  have hbool : ∀ v b, isFinite v = true → v.bool? = some b → Alike (.bool b) v := by
    intro v b _ hb
    cases v <;> cases hb
    exact .rfl
  have hstr : ∀ v s, isFinite v = true → v.str? = some s → Alike (.str s) v := by
    intro v s _ hs
    cases v <;> cases hs
    exact .rfl
  unfold Operand.ofJson? at h
  simp only at h
  split at h
  all_goals
    obtain ⟨as, has, rfl⟩ := Option.map_eq_some_iff.1 h
  · exact ⟨_, rfl, forall₂_alike_of_mapM hnumber hfinite has⟩
  · exact ⟨_, rfl, forall₂_alike_of_mapM hbool hfinite has⟩
  · exact ⟨_, rfl, forall₂_alike_of_mapM hstr hfinite has⟩

/-- Membership in alike candidates is one membership. -/
theorem any_looseEq_of_alike {ws vs : List Json} (h : List.Forall₂ Alike ws vs) (v : Json) :
    (ws.any fun x => v.looseEq x) = vs.any fun x => v.looseEq x := by
  induction h with
  | nil => rfl
  | cons hab _ ih => rw [List.any_cons, List.any_cons, hab.1 v, ih]

/-! ## Conjunctions -/

theorem allHold_eq (properties : Metadata) (ws : List Where) :
    Where.allHold properties ws = ws.all fun w => w.holds properties := by
  induction ws with
  | nil => rfl
  | cons w ws ih => rw [Where.allHold, ih, List.all_cons]

/-- A filter holds when its conjuncts do. -/
theorem all_conjuncts (properties : Metadata) (w : Where) :
    (w.conjuncts.all fun w => w.holds properties) = w.holds properties := by
  cases w with
  | all operands => rw [Where.conjuncts, Where.holds, allHold_eq]
  | property => simp [Where.conjuncts]

theorem holds_and (properties : Metadata) (a b : Where) :
    (a.and b).holds properties = (a.holds properties && b.holds properties) := by
  rw [Where.and, Where.holds, allHold_eq, List.all_append, all_conjuncts, all_conjuncts]

theorem holds_foldl_and (properties : Metadata) (w : Where) (ws : List Where) :
    (ws.foldl Where.and w).holds properties =
      (w.holds properties && ws.all fun w => w.holds properties) := by
  induction ws generalizing w with
  | nil => simp
  | cons w' ws ih => rw [List.foldl_cons, ih, holds_and, List.all_cons, Bool.and_assoc]

/-- A combined filter holds when every filter does, and none at all of everything. -/
theorem passes_combine (ws : List Where) (properties : Metadata) :
    passes (if ws.isEmpty then none else some (filterCompiler.combine ws)) properties =
      ws.all fun w => w.holds properties := by
  cases ws with
  | nil => rfl
  | cons w ws => exact holds_foldl_and properties w ws

/-! ## Clause by clause -/

variable {c : Clause} {w : Where}

theorem isServerSide_eq (c : Clause) :
    filterCompiler.capabilities.isServerSide c = !residualOperators.contains c.operator := by
  rw [filterCompiler, Capabilities.isServerSide_without, Capabilities.isServerSide_allServerSide,
    Bool.true_and]

/-- What the server evaluates looks for no operand inside a field. -/
theorem asksInside_of_serverSide (hs : filterCompiler.capabilities.isServerSide c = true) :
    c.operator.asksInside = false := by
  rw [isServerSide_eq] at hs
  cases hop : c.operator <;> simp_all [residualOperators, Operator.asksInside]

/-- What a clause lowers to. -/
theorem lower_eq_ok (h : lower c = .ok w) :
    ∃ comparison operand, comparison? c.operator = some comparison ∧
      Operand.ofJson? c.value = some operand ∧
      w = .property (propertyOf c) comparison operand := by
  unfold lower at h
  split at h
  · cases h
  · rename_i operand hoperand
    split at h
    · rename_i comparison hcomparison
      exact ⟨comparison, operand, hcomparison, hoperand, (Except.ok.inj h).symm⟩
    · cases h

/-- **A comparison holds of a property that is there** when some value of it passes
the clause's test, or for a negated operator when none does. -/
theorem comparison_holds_eq (hv : c.validate = .ok ()) (hfinite : operandFinite c = true)
    {comparison : Comparison} {operand : Operand} (hc : comparison? c.operator = some comparison)
    (ho : Operand.ofJson? c.value = some operand) (field : Json) :
    comparison.holds operand.toJson field =
      (c.operator.isNegated ^^ (values field).any c.meetsWhole) := by
  obtain ⟨hvalue, hlist⟩ := Bool.and_eq_true_iff.1 hfinite
  have halike : c.operator.takesList = false → Alike operand.toJson c.value :=
    fun hl => alike_of_isScalar (Clause.isScalar_of_validate hv hl) hvalue ho
  have harr := Clause.value_eq_arr_list hv
  unfold Clause.meetsWhole
  cases hop : c.operator <;> simp only [hop, comparison?, Option.some.injEq, reduceCtorEq] at hc <;>
    simp only [← hc, Comparison.holds, Operator.isNegated, Bool.false_xor, Bool.true_xor]
  case eq | ne => simp only [(halike (by rw [hop]; rfl)).1]
  case gt | gte | lt | lte => simp only [(halike (by rw [hop]; rfl)).2, Clause.meets, hop]
  case isIn =>
    rw [harr (by rw [hop]; rfl)] at ho
    obtain ⟨ws, hws, hall⟩ := forall₂_alike_of_list hlist ho
    have hcandidate : isCandidate (.arr ws) = fun v => c.list.any fun x => v.looseEq x :=
      funext fun v => any_looseEq_of_alike hall v
    rw [hws, hcandidate]

/-- A property that may be missing passes as its values do; null has none that
passes. -/
theorem comparison_admits_eq (hv : c.validate = .ok ()) (hfinite : operandFinite c = true)
    (hi : c.operator.asksInside = false)
    {comparison : Comparison} {operand : Operand} (hc : comparison? c.operator = some comparison)
    (ho : Operand.ofJson? c.value = some operand) (property : Option Json) :
    comparison.admits operand.toJson property =
      (c.operator.isNegated ^^ property.any fun v => (values v).any c.meetsWhole) := by
  have hnegated : decide (comparison = .notEqual) = c.operator.isNegated := by
    cases hop : c.operator <;> simp only [hop, comparison?, Option.some.injEq, reduceCtorEq] at hc <;>
      subst hc <;> rfl
  cases property with
  | none => simpa [Comparison.admits] using hnegated
  | some field =>
    cases field with
    | null =>
      have hnull : c.meetsWhole .null = false := Clause.meetsWhole_of_not_isScalar hv hi rfl
      simpa [Comparison.admits, values, hnull] using hnegated
    | _ => exact comparison_holds_eq hv hfinite hc ho _

/-! ## Objects of items -/

/-- An item that may be stored has no metadata under the name of the document. -/
theorem get?_document_of_checkProperties {item : Item} (h : checkProperties item = .ok ()) :
    Keyed.get? documentProperty item.metadata = none := by
  unfold checkProperties at h
  split at h
  · cases h
  · rename_i hnone
    rw [Option.eq_none_iff_forall_not_mem]
    intro v hv
    have hkey : documentProperty ∈ Keyed.keys item.metadata :=
      List.mem_map.2 ⟨_, Keyed.mem_of_get? hv, rfl⟩
    exact absurd rfl (List.find?_eq_none.1 hnone _ hkey)

/-- The metadata of an item with its document under a name that no metadata has. -/
def documented (item : Item) : Metadata :=
  match item.document with
  | some d => Keyed.insert documentProperty (.str d) item.metadata
  | none => item.metadata

theorem get?_documented {item : Item} (hcheck : checkProperties item = .ok ()) (c : Clause) :
    Keyed.get? c.field (documented item) = c.fieldOf item := by
  by_cases hd : c.field = documentProperty
  · have ht : c.target = .document := if_pos hd
    simp only [Clause.fieldOf, documented, ht, hd]
    cases item.document with
    | none => exact get?_document_of_checkProperties hcheck
    | some d => exact Keyed.get?_insert_self _ _ _
  · have ht : c.target = .metadata c.field := if_neg hd
    simp only [Clause.fieldOf, documented, ht]
    cases item.document with
    | none => rfl
    | some d => exact Keyed.get?_insert_of_ne (Ne.symm hd) _ _

/-- The property of a clause is the field of the item, and under the reserved key the
id where it is kept. -/
theorem get?_properties_ofItem {item : Item} (hcheck : checkProperties item = .ok ())
    (c : Clause) :
    Keyed.get? (propertyOf c) (Object.ofItem item).properties =
      if c.field = givenIdKey ∧ (uuidKey item.id).2 then some (.str item.id)
      else c.fieldOf item := by
  have hproperty : propertyOf c = c.field := by
    by_cases hd : c.field = documentField <;> simp [propertyOf, Clause.target, hd]
    rfl
  have hproperties : (Object.ofItem item).properties =
      if (uuidKey item.id).2 then Keyed.insert givenIdKey (.str item.id) (documented item)
      else documented item := rfl
  have hshown := get?_documented hcheck c
  rw [hproperty, hproperties]
  cases hkept : (uuidKey item.id).2 with
  | false =>
    rw [if_neg Bool.false_ne_true, if_neg (by simp)]
    exact hshown
  | true =>
    rw [if_pos rfl, Keyed.get?_insert]
    by_cases hg : givenIdKey = c.field
    · rw [if_pos hg, if_pos ⟨hg.symm, rfl⟩]
    · rw [if_neg hg, if_neg fun h => hg h.1.symm]
      exact hshown

/-- Whether the server finds a clause that the semantics does not: in the id that is
kept as a property, or in the order of a list's element. -/
def findsMore (c : Clause) (item : Item) : Bool :=
  filterCompiler.capabilities.isServerSide c &&
    if c.field = givenIdKey ∧ (uuidKey item.id).2 then c.meets (.str item.id)
    else (c.fieldOf item).any c.ordersElement

/-- **A where-filter of a clause** holds of the object of an item as the clause
accepts the item, but where the server finds more it holds for a positive operator and
not for a negated one. -/
theorem holds_lower_eq (hs : filterCompiler.capabilities.isServerSide c = true)
    (hv : c.validate = .ok ()) (hfinite : operandFinite c = true) (h : lower c = .ok w)
    {item : Item} (hcheck : checkProperties item = .ok ())
    (hplain : Metadata.Plain item.metadata) :
    w.holds (Object.ofItem item).properties =
      if findsMore c item then !c.operator.isNegated else c.accepts item := by
  obtain ⟨comparison, operand, hc, ho, rfl⟩ := lower_eq_ok h
  have hi := asksInside_of_serverSide hs
  have hvalues : ∀ v : Json, (values v).any c.meetsWhole = (c.meets v ^^ c.ordersElement v) := by
    intro v
    cases v with
    | arr elems => exact Clause.any_meetsWhole hi elems
    | _ =>
      simp only [values, List.any_cons, List.any_nil, Bool.or_false, Clause.ordersElement,
        Bool.xor_false]
      exact Clause.meetsWhole_of_not_arr rfl c
  rw [Where.holds, comparison_admits_eq hv hfinite hi hc ho, get?_properties_ofItem hcheck,
    findsMore, hs, Bool.true_and, Clause.accepts_eq]
  by_cases hkept : c.field = givenIdKey ∧ (uuidKey item.id).2 = true
  · -- the item itself has nothing under the reserved key
    have hnone : c.fieldOf item = none := by
      have ht : c.target = .metadata c.field := if_neg (by rw [hkept.1]; decide)
      rw [Clause.fieldOf, ht, hkept.1]
      exact hplain
    simp only [if_pos hkept, hnone, Option.any_some, Option.any_none, hvalues, Clause.ordersElement]
    cases c.meets (.str item.id) <;> simp
  · simp only [if_neg hkept]
    cases c.fieldOf item with
    | none => simp
    | some v =>
      simp only [Option.any_some, hvalues]
      cases ho : c.ordersElement v with
      | true => simp [Clause.meets_of_ordersElement ho]
      | false => simp

/-! ## Filter by filter -/

/-- **Where-filters are exact where the server finds no more.** The where-filter and
the residual together pass the object of an item when every clause accepts the item,
except that a clause for which the server finds more holds if it is positive and fails
if it is negated. -/
theorem passes_properties_eq {f : Filter} {compiled : CompiledFilter Where} {item : Item}
    (h : filterCompiler.compile f = .ok compiled)
    (hfinite : ∀ c ∈ f.clauses, operandFinite c = true)
    (hcheck : checkProperties item = .ok ()) (hplain : Metadata.Plain item.metadata) :
    ((passes compiled.native (Object.ofItem item).properties && compiled.residual.accepts item) =
      f.clauses.all fun c =>
        if findsMore c item then !c.operator.isNegated else c.accepts item) ∧
    ((∀ c ∈ f.clauses, findsMore c item = false) →
      (passes compiled.native (Object.ofItem item).properties &&
        compiled.residual.accepts item) = f.accepts item) := by
  obtain ⟨hv, ws, hws, rfl⟩ := FilterCompiler.compile_eq_ok_iff.1 h
  have hlower := FilterCompiler.all_holds_and_residual_eq hws item
    (fun c hc hs w hw => holds_lower_eq hs (hv c hc) (hfinite c hc) hw hcheck hplain)
    (fun c hc hs => by rw [findsMore, hs, Bool.false_and, if_neg Bool.false_ne_true])
  have heq := passes_combine ws (Object.ofItem item).properties ▸ hlower
  refine ⟨heq, fun hnone => heq.trans (Filter.all_eq_accepts fun c hc => ?_)⟩
  rw [hnone c hc, if_neg Bool.false_ne_true]

/-- An object with a list, a null and a document, under an order of the document, a
membership test of the list, a negation of the null, and a substring test that is left to
the client. -/
theorem passes_properties_eq_of_null_property :
    let f : Filter := ⟨[⟨documentField, .gt, .str "a"⟩, ⟨"tags", .isIn, .arr [.str "a", .str "c"]⟩,
      ⟨"owner", .ne, .str "x"⟩, ⟨"tags", .notContains, .str "d"⟩]⟩
    let item : Item := ⟨"00000000-0000-0000-0000-000000000001", some "fox",
      [("owner", .null), ("tags", .arr [.str "b", .str "a"])], none⟩
    ∃ compiled, filterCompiler.compile f = .ok compiled ∧
      (∀ c ∈ f.clauses, operandFinite c = true) ∧ checkProperties item = .ok () ∧
      Metadata.Plain item.metadata ∧ (∀ c ∈ f.clauses, findsMore c item = false) ∧
      (passes compiled.native (Object.ofItem item).properties &&
        compiled.residual.accepts item) = f.accepts item ∧ f.accepts item = true := by
  intro f item
  have hfinite : ∀ c ∈ f.clauses, operandFinite c = true := by decide
  have hnone : ∀ c ∈ f.clauses, findsMore c item = false := by decide
  have hplain : Metadata.Plain item.metadata := rfl
  exact ⟨_, rfl, hfinite, rfl, hplain, hnone,
    (passes_properties_eq rfl hfinite rfl hplain).2 hnone, by decide⟩

/-- A list with a text in the order that is asked for passes the where-filter, and the
item, which has no order there, is not accepted. -/
theorem passes_properties_ne_of_list_order :
    ∃ (f : Filter) (compiled : CompiledFilter Where) (item : Item),
      filterCompiler.compile f = .ok compiled ∧ (∀ c ∈ f.clauses, operandFinite c = true) ∧
        checkProperties item = .ok () ∧ Metadata.Plain item.metadata ∧
        (passes compiled.native (Object.ofItem item).properties &&
          compiled.residual.accepts item) = true ∧ f.accepts item = false :=
  ⟨⟨[⟨"tags", .gt, .str "a"⟩]⟩, _,
    ⟨"00000000-0000-0000-0000-000000000001", none, [("tags", .arr [.str "b"])], none⟩, rfl,
    by decide, rfl, rfl, by decide, by decide⟩

end Weaviate

end VectorBridge
