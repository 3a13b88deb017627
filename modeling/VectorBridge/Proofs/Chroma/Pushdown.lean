import VectorBridge.Chroma.Memory
import VectorBridge.Proofs.Filter.Matching
/-!
# Where-maps mean what their clauses say

Scalar comparisons of a where-map do not look into lists, so equality and
membership are a pair of tests, and each pair is compared here with the one
test of the filter semantics. A field shares the key space of a where-map
with the combinators, and a clause on a field that is called like one is
read as a malformed combination, which holds of nothing. Off those two names
the translation is exact, and the main statement says so in both directions.
-/

namespace VectorBridge

namespace Chroma

/-- The keys that a where-map reads as combinators and not as fields. -/
def isCombinator (key : String) : Bool := key = "$and" || key = "$or"

/-! ## Reading where-maps -/

/-- One comparison of a field is evaluated on the field. -/
theorem satisfies_predicate {key : String} (hk : isCombinator key = false) (metadata : Metadata)
    (op : String) (value : Json) :
    satisfies metadata (predicate key op value) =
      comparisonHolds op value (Keyed.get? key metadata) := by
  obtain ⟨hand, hor⟩ : key ≠ "$and" ∧ key ≠ "$or" := by simpa [isCombinator] using hk
  simp [predicate, satisfies, entriesHold, fieldHolds, hand, hor]

/-- One comparison of a field that is called like a combinator never holds. -/
theorem satisfies_predicate_of_isCombinator {key : String} (hk : isCombinator key = true)
    (metadata : Metadata) (op : String) (value : Json) :
    satisfies metadata (predicate key op value) = false := by
  have h : key = "$and" ∨ key = "$or" := by simpa [isCombinator] using hk
  simp [predicate, satisfies, entriesHold, h]

theorem allHold_eq (metadata : Metadata) (ws : List Json) :
    allHold metadata ws = ws.all (satisfies metadata) := by
  induction ws with
  | nil => rfl
  | cons w ws ih => rw [allHold, ih, List.all_cons]

theorem someHolds_eq (metadata : Metadata) (ws : List Json) :
    someHolds metadata ws = ws.any (satisfies metadata) := by
  induction ws with
  | nil => rfl
  | cons w ws ih => rw [someHolds, ih, List.any_cons]

/-- A conjunction holds when every part does, also when a single part stands
for itself. -/
theorem satisfies_join_and (metadata : Metadata) (ws : List Json) :
    satisfies metadata (join "$and" ws) = ws.all (satisfies metadata) := by
  obtain _ | ⟨w, _ | ⟨w', ws⟩⟩ := ws
  · rfl
  · simp [join]
  · simp [join, satisfies, entriesHold, allHold_eq]

theorem satisfies_join_or (metadata : Metadata) (ws : List Json) :
    satisfies metadata (join "$or" ws) = ws.any (satisfies metadata) := by
  obtain _ | ⟨w, _ | ⟨w', ws⟩⟩ := ws
  · rfl
  · simp [join]
  · simp [join, satisfies, entriesHold, someHolds_eq]

/-! ## Pairs of comparisons -/

/-- Equality with a scalar and the test of a list's elements together are
equality of the field or of some element. -/
theorem looseEq_or_hasElement {v : Json} (hv : Clause.isScalar v = true) (field : Json) :
    (field.looseEq v || hasElement field v) =
      Filter.anyElement (fun e => e.looseEq v) field := by
  cases field with
  | arr elems =>
    simp [Json.looseEq_of_isScalar (w := .arr elems) hv rfl, hasElement, Filter.anyElement]
  | _ => simp [hasElement, Filter.anyElement]

/-- The same pair for a list of scalars is membership. -/
theorem isCandidate_or_hasElement {candidates : List Json}
    (hc : ∀ v ∈ candidates, Clause.isScalar v = true) (field : Json) :
    (isCandidate field (.arr candidates) || candidates.any (hasElement field)) =
      Filter.inList field candidates := by
  cases field with
  | arr elems =>
    have hnone : (candidates.any fun v => (Json.arr elems).looseEq v) = false := by
      rw [List.any_eq_false]
      exact fun v hv => Bool.eq_false_iff.1 (Json.looseEq_of_isScalar (hc v hv) rfl)
    rw [isCandidate, hnone, Bool.false_or, Filter.inList_eq_any]
    rfl
  | _ => simp [isCandidate, hasElement, Filter.inList, Filter.anyElement]

/-! ## Clause by clause -/

variable {c : Clause} {w : Json}

/-- The server evaluates what is asked of metadata, unless it is looked for inside a field. -/
theorem isServerSide_eq (c : Clause) :
    filterCompiler.capabilities.isServerSide c = (!c.onDocument && !c.operator.asksInside) := by
  cases hd : c.onDocument <;> cases hop : c.operator <;>
    simp [filterCompiler, Capabilities.isServerSide, Capabilities.setMetadata,
      Capabilities.setDocumentAll, Capabilities.allServerSide, Operator.asksInside, hd, hop]

/-- A clause that is evaluated by the server is one on metadata. -/
theorem fieldOf_of_serverSide (hs : filterCompiler.capabilities.isServerSide c = true)
    (item : Item) : c.fieldOf item = Keyed.get? c.field item.metadata := by
  rw [isServerSide_eq, Bool.and_eq_true, Bool.not_eq_true'] at hs
  have hf : c.field ≠ documentField := of_decide_eq_false hs.1
  simp [Clause.fieldOf, Clause.target, hf]

/-- What a clause lowers to: the comparison of its operator, alone or joined
with tests of a list's elements. -/
theorem lower_eq_ok (h : lower c = .ok w) :
    ∃ op, whereOperator? c.operator = some op ∧
      w = match c.operator with
        | .eq => join "$or" [predicate c.field op c.value, predicate c.field "$contains" c.value]
        | .ne => join "$and"
            [predicate c.field op c.value, predicate c.field "$not_contains" c.value]
        | .isIn => join "$or"
            (predicate c.field op c.value :: c.list.map (predicate c.field "$contains"))
        | .notIn => join "$and"
            (predicate c.field op c.value :: c.list.map (predicate c.field "$not_contains"))
        | _ => predicate c.field op c.value := by
  unfold lower at h
  split at h
  · cases h
  · rename_i op hop
    split at h
    · cases h
    · exact ⟨op, hop, (Except.ok.inj h).symm⟩

/-- A clause on a field that is called like a combinator lowers to what never
holds. -/
theorem satisfies_lower_of_isCombinator (hk : isCombinator c.field = true)
    (h : lower c = .ok w) (metadata : Metadata) : satisfies metadata w = false := by
  obtain ⟨op, -, rfl⟩ := lower_eq_ok h
  have hp := satisfies_predicate_of_isCombinator hk metadata
  cases c.operator <;>
    simp [satisfies_join_and, satisfies_join_or, hp, Function.comp_def]

/-- Off the names of combinators a clause lowers to what holds exactly of the
items that it accepts. -/
theorem satisfies_lower (hv : c.validate = .ok ())
    (hs : filterCompiler.capabilities.isServerSide c = true) (hk : isCombinator c.field = false)
    (h : lower c = .ok w) (item : Item) : satisfies item.metadata w = c.accepts item := by
  obtain ⟨op, hop, rfl⟩ := lower_eq_ok h
  generalize hm : item.metadata = metadata
  rw [Clause.accepts, fieldOf_of_serverSide hs, hm]
  have hp := satisfies_predicate hk metadata
  have hscalar := Clause.isScalar_of_validate hv
  have hcandidates := Clause.isScalar_of_mem_list hv
  have hlist := Clause.value_eq_arr_list hv
  -- a combinator of predicates is that combination of comparisons of the field
  have hor : ∀ op v ws, satisfies metadata (join "$or" (predicate c.field op v :: ws)) =
      (comparisonHolds op v (Keyed.get? c.field metadata) || ws.any (satisfies metadata)) :=
    fun op v ws => by rw [satisfies_join_or, List.any_cons, hp]
  have hand : ∀ op v ws, satisfies metadata (join "$and" (predicate c.field op v :: ws)) =
      (comparisonHolds op v (Keyed.get? c.field metadata) && ws.all (satisfies metadata)) :=
    fun op v ws => by rw [satisfies_join_and, List.all_cons, hp]
  cases ho : c.operator with
  | eq =>
    obtain rfl : "$eq" = op := by simpa [ho, whereOperator?] using hop
    have hpair := looseEq_or_hasElement (hscalar (by rw [ho]; rfl))
    simp only [hor, List.any_cons, List.any_nil, hp, Bool.or_false]
    cases Keyed.get? c.field metadata with
    | none => rfl
    | some field => simp [comparisonHolds, Clause.admits, ho, hpair]
  | ne =>
    obtain rfl : "$ne" = op := by simpa [ho, whereOperator?] using hop
    have hpair := looseEq_or_hasElement (hscalar (by rw [ho]; rfl))
    simp only [hand, List.all_cons, List.all_nil, hp, Bool.and_true]
    cases Keyed.get? c.field metadata with
    | none => rfl
    | some field => simp [comparisonHolds, Clause.admits, ho, ← hpair, Bool.not_or]
  | isIn =>
    obtain rfl : "$in" = op := by simpa [ho, whereOperator?] using hop
    have hpair := isCandidate_or_hasElement (hcandidates (by rw [ho]; rfl))
    simp only [hor, List.any_map, Function.comp_def, hp]
    rw [hlist (by rw [ho]; rfl)]
    cases Keyed.get? c.field metadata with
    | none => simp [comparisonHolds, Operator.isNegated]
    | some field => simp [comparisonHolds, Clause.admits, ho, hpair]
  | notIn =>
    obtain rfl : "$nin" = op := by simpa [ho, whereOperator?] using hop
    have hpair := isCandidate_or_hasElement (hcandidates (by rw [ho]; rfl))
    simp only [hand, List.all_map, Function.comp_def, hp]
    rw [hlist (by rw [ho]; rfl)]
    cases Keyed.get? c.field metadata with
    | none => simp [comparisonHolds, Operator.isNegated]
    | some field =>
      simp [comparisonHolds, Clause.admits, ho, ← hpair, Bool.not_or, List.not_any_eq_all_not]
  | contains => simp [ho, whereOperator?] at hop
  | notContains => simp [ho, whereOperator?] at hop
  | gt | gte | lt | lte =>
    rw [ho] at hop
    obtain rfl := Option.some.inj hop
    simp only [hp]
    cases Keyed.get? c.field metadata with
    | none => rfl
    | some field => simp [comparisonHolds, Clause.admits, ho]

/-- A clause's where-map holds exactly when the clause accepts the item and
its field is not called like a combinator. -/
theorem satisfies_lower_eq (hv : c.validate = .ok ())
    (hs : filterCompiler.capabilities.isServerSide c = true) (h : lower c = .ok w) (item : Item) :
    satisfies item.metadata w = (c.accepts item && !isCombinator c.field) := by
  cases hk : isCombinator c.field with
  | true => simp [satisfies_lower_of_isCombinator hk h]
  | false => simp [satisfies_lower hv hs hk h]

/-! ## Filter by filter -/

/-- A combined fragment holds when every where-map does, and its absence
holds of everything. -/
theorem passes_combine (metadata : Metadata) (ws : List Json) :
    passes (if ws.isEmpty then none else some (filterCompiler.combine ws)) metadata =
      ws.all (satisfies metadata) := by
  cases ws with
  | nil => rfl
  | cons w ws => exact satisfies_join_and metadata (w :: ws)

/-- The where-maps of a filter's server side hold together when its clauses
accept the item and none of their fields is called like a combinator. -/
theorem all_satisfies_eq {cs : List Clause} {ws : List Json}
    (hl : List.Forall₂ (fun c w => lower c = .ok w) cs ws) (hv : ∀ c ∈ cs, c.validate = .ok ())
    (hs : ∀ c ∈ cs, filterCompiler.capabilities.isServerSide c = true) (item : Item) :
    ws.all (satisfies item.metadata) =
      (cs.all (·.accepts item) && cs.all fun c => !isCombinator c.field) := by
  induction hl with
  | nil => rfl
  | @cons c w cs ws hc _ ih =>
    rw [List.forall_mem_cons] at hv hs
    rw [List.all_cons, ih hv.2 hs.2, satisfies_lower_eq hv.1 hs.1 hc]
    simp only [List.all_cons, Bool.and_assoc, Bool.and_left_comm]

/-- **Where-maps are exact off the names of combinators.** The fragment and
the residual together pass an item exactly when the filter accepts it and no
clause left to the server is on a field that is called `$and` or `$or`; with
such a clause they pass nothing. -/
theorem passes_and_residual_eq {f : Filter} {compiled : CompiledFilter Json}
    (h : filterCompiler.compile f = .ok compiled) (item : Item) :
    (passes compiled.native item.metadata && compiled.residual.accepts item) =
      (f.accepts item &&
        (filterCompiler.serverSide f).all fun c => !isCombinator c.field) := by
  obtain ⟨hv, ws, hws, rfl⟩ := FilterCompiler.compile_eq_ok_iff.1 h
  have hserver : ∀ c ∈ filterCompiler.serverSide f,
      c ∈ f.clauses ∧ filterCompiler.capabilities.isServerSide c = true :=
    fun c hc => List.mem_filter.1 hc
  rw [passes_combine, all_satisfies_eq hws (fun c hc => hv c (hserver c hc).1)
    (fun c hc => (hserver c hc).2), filterCompiler.accepts_eq_parts f]
  simp only [Bool.and_assoc, Bool.and_comm]

/-- A list field, a missing field under a negation, a substring test that is
left to the client, and a clause on a combinator's name that is too. -/
theorem passes_and_residual_eq_of_list_field :
    let f : Filter := ⟨[⟨"tags", .isIn, .arr [.str "a", .bool true]⟩, ⟨"owner", .ne, .str "x"⟩,
      ⟨documentField, .contains, .str "fox"⟩, ⟨"$and", .contains, .str "b"⟩]⟩
    let item : Item := ⟨"1", some "a fox",
      [("$and", .str "abc"), ("tags", .arr [.str "b", .str "a"])], none⟩
    ∃ compiled, filterCompiler.compile f = .ok compiled ∧
      (passes compiled.native item.metadata && compiled.residual.accepts item) =
        (f.accepts item &&
          (filterCompiler.serverSide f).all fun c => !isCombinator c.field) ∧
      passes compiled.native item.metadata = true ∧ f.accepts item = true :=
  ⟨_, rfl, passes_and_residual_eq rfl _, by decide, by decide⟩

/-- A clause on a field that is called `$and` compiles, its filter accepts the
item that has the field, and the fragment passes nothing. -/
theorem passes_ne_accepts_of_combinator_field :
    ∃ (f : Filter) (compiled : CompiledFilter Json) (item : Item),
      filterCompiler.compile f = .ok compiled ∧ f.accepts item = true ∧
        (passes compiled.native item.metadata && compiled.residual.accepts item) = false :=
  ⟨⟨[⟨"$and", .eq, .str "x"⟩]⟩, _, ⟨"1", none, [("$and", .str "x")], none⟩, rfl,
    by decide, by decide⟩

end Chroma

end VectorBridge
