import VectorBridge.Proofs.Filter.Matching
import VectorBridge.Proofs.Identifier
import VectorBridge.Qdrant.Store
/-!
# Point filters find more than their clauses say

A point filter is evaluated on a payload, value by value for a list, and the
item is what is read back of the point. The server finds all that the semantics
finds, and more in two ways: in a list it also looks for an order or for a
substring of an element, and it sees payload fields that reading hides (the kept
id, and a `document` that is no text). `findsMore` says where, and the main
statement is that the filter holds of a payload exactly as the clauses do, each
of them inverted where more is found.
-/

namespace VectorBridge

/-- A text occurs in itself. -/
theorem Text.contains_self (s : String) : Text.contains s s = true := by
  unfold Text.contains
  cases s.toList with
  | nil => rfl
  | cons c cs => simp [Text.occursIn]

namespace Qdrant

/-! ## Values of a payload field -/

/-- Whether some value of a payload field satisfies `test`. -/
def found (key : String) (payload : Metadata) (test : Json → Bool) : Bool :=
  (Keyed.get? key payload).any fun field => (fieldValues field).any test

section Found

variable {key : String} {payload : Metadata}

theorem holds_field_test (test : Match) :
    (Condition.field key (some test) none).holds payload = found key payload test.holds := by
  rw [Condition.holds, found]
  cases Keyed.get? key payload <;> simp [fieldHolds]

theorem holds_field_range (range : Range) :
    (Condition.field key none (some range)).holds payload = found key payload range.holds := by
  rw [Condition.holds, found]
  cases Keyed.get? key payload <;> simp [fieldHolds]

/-- What satisfies one of two tests is found by one of them. -/
theorem found_or (p q : Json → Bool) :
    found key payload (fun v => p v || q v) = (found key payload p || found key payload q) := by
  unfold found
  cases Keyed.get? key payload with
  | none => rfl
  | some field =>
    rw [Bool.eq_iff_iff]
    simp only [Option.any_some, Bool.or_eq_true, List.any_eq_true]
    constructor
    · rintro ⟨v, hv, h | h⟩
      · exact .inl ⟨v, hv, h⟩
      · exact .inr ⟨v, hv, h⟩
    · rintro (⟨v, hv, h⟩ | ⟨v, hv, h⟩)
      · exact ⟨v, hv, .inl h⟩
      · exact ⟨v, hv, .inr h⟩

theorem found_false : found key payload (fun _ => false) = false := by
  unfold found
  cases Keyed.get? key payload <;> simp

/-- What satisfies one of many tests is found by one of them. -/
theorem found_any {α : Type} (xs : List α) (test : α → Json → Bool) :
    found key payload (fun v => xs.any fun x => test x v) =
      xs.any fun x => found key payload (test x) := by
  induction xs with
  | nil => exact found_false
  | cons x xs ih => simp only [List.any_cons, found_or, ih]

end Found

theorem someHolds_eq (payload : Metadata) (cs : List Condition) :
    Condition.someHolds payload cs = cs.any (Condition.holds payload) := by
  induction cs with
  | nil => rfl
  | cons c cs ih => rw [Condition.someHolds, ih, List.any_cons]

theorem allHold_eq (payload : Metadata) (cs : List Condition) :
    Condition.allHold payload cs = cs.all (Condition.holds payload) := by
  induction cs with
  | nil => rfl
  | cons c cs ih => rw [Condition.allHold, ih, List.all_cons]

/-! ## Shapes of conditions -/

section Shapes

variable {key : String} {payload : Metadata} {value : Json} {d : Condition}

/-- Two bounds at one number leave that number. -/
theorem holds_point (n : Number) (v : Json) :
    Range.holds { Range.all with gte := some n.toFloat, lte := some n.toFloat } v =
      v.looseEq (.num n) := by
  cases v with
  | num m =>
    simp only [Range.holds, Json.num?, Range.all, Option.all_none, Option.all_some,
      Bool.true_and, Json.looseEq, Number.looseEq, Binary64.eq]
    cases Binary64.compare? m.toFloat n.toFloat with
    | none => rfl
    | some o => cases o <;> rfl
  | _ => rfl

/-- An equality holds when some value equals the operand. -/
theorem holds_equals (h : equals key value = .ok d) :
    d.holds payload = found key payload fun v => v.looseEq value := by
  cases value with
  | str s =>
    obtain rfl := Except.ok.inj h
    rw [holds_field_test]
    exact congrArg _ (funext fun v => (Json.looseEq_str v s).symm)
  | bool b =>
    obtain rfl := Except.ok.inj h
    rw [holds_field_test]
    exact congrArg _ (funext fun v => (Json.looseEq_bool v b).symm)
  | num n =>
    obtain rfl := Except.ok.inj h
    rw [holds_field_range]
    exact congrArg _ (funext fun v => holds_point n v)
  | _ => cases h

/-- Equalities with each of some values hold where those values are found. -/
theorem equalsEach_eq_ok {values : List Json} {ds : List Condition}
    (h : equalsEach key values = .ok ds) :
    List.Forall₂ (fun v d => equals key v = .ok d) values ds := by
  induction values generalizing ds with
  | nil =>
    obtain rfl := Except.ok.inj h
    exact .nil
  | cons v vs ih =>
    rw [equalsEach] at h
    cases hv : equals key v with
    | error e => simp [hv] at h
    | ok c =>
      cases hvs : equalsEach key vs with
      | error e => simp [hv, hvs] at h
      | ok cs =>
        simp only [hv, hvs, Except.ok.injEq] at h
        exact h ▸ .cons hv (ih hvs)

/-- Some of several equalities holds when some value equals some operand. -/
theorem any_holds_of_equals {values : List Json} {ds : List Condition}
    (h : List.Forall₂ (fun v d => equals key v = .ok d) values ds) :
    ds.any (Condition.holds payload) =
      values.any fun x => found key payload fun v => v.looseEq x := by
  induction h with
  | nil => rfl
  | cons hd _ ih => rw [List.any_cons, List.any_cons, holds_equals hd, ih]

/-- Alternatives hold when one of them does, also when a single one stands for
itself; without any, nothing would be asked. -/
theorem holds_alternatives {ds : List Condition} (hne : ds ≠ []) :
    (match ds with
      | [d] => d
      | ds => Condition.nested [] [] ds).holds payload = ds.any (Condition.holds payload) := by
  match ds with
  | [] => exact absurd rfl hne
  | [d] => simp
  | d :: d' :: ds =>
    simp [Condition.holds, allHold_eq, someHolds_eq]

/-- The candidates are the strings among them and the others. -/
theorem any_eq_strings_or_others (values : List Json) (v : Json) :
    (values.any fun x => v.looseEq x) =
      ((v.str?.any fun t => (values.filterMap Json.str?).contains t) ||
        (values.filter fun x => x.str?.isNone).any fun x => v.looseEq x) := by
  induction values with
  | nil => cases v.str? <;> rfl
  | cons x values ih =>
    rw [List.any_cons, ih]
    cases hx : x.str? with
    | none => simp [hx, Bool.or_left_comm]
    | some s =>
      obtain rfl : x = .str s := by cases x <;> simp_all [Json.str?]
      rw [Json.looseEq_str]
      cases v.str? <;> simp [Json.str?, Bool.or_assoc]

/-- The keyword list of a membership test; there is none when the candidates
are all of other kinds. -/
def keywordsOf (key : String) (values : List Json) : List Condition :=
  if !(values.filterMap Json.str?).isEmpty || values.isEmpty then
    [.field key (some (.keywords (values.filterMap Json.str?))) none]
  else []

/-- A keyword list finds the strings among the candidates. -/
theorem any_holds_keywordsOf (values : List Json) :
    (keywordsOf key values).any (Condition.holds payload) =
      found key payload fun v => v.str?.any fun t => (values.filterMap Json.str?).contains t := by
  unfold keywordsOf
  split
  · simp only [List.any_cons, List.any_nil, Bool.or_false, holds_field_test]
    rfl
  · rename_i hnone
    have hstrings : values.filterMap Json.str? = [] := by
      cases hs : values.filterMap Json.str? with
      | nil => rfl
      | cons => simp [hs] at hnone
    rw [hstrings, List.any_nil]
    refine found_false.symm.trans (congrArg _ (funext fun v => ?_))
    cases v.str? <;> rfl

/-- A membership test is never without alternatives. -/
theorem keywordsOf_append_ne_nil {values : List Json} {ds : List Condition}
    (h : List.Forall₂ (fun v d => equals key v = .ok d)
      (values.filter fun x => x.str?.isNone) ds) : keywordsOf key values ++ ds ≠ [] := by
  cases values with
  | nil => simp [keywordsOf]
  | cons v vs =>
    cases hv : v.str? with
    | some s => simp [keywordsOf, hv]
    | none =>
      rw [List.filter_cons, if_pos (by simp [hv])] at h
      cases h
      simp

/-- A membership test holds when some value is among the candidates. -/
theorem holds_anyOf {values : List Json} (h : anyOf key values = .ok d) :
    d.holds payload = found key payload fun v => values.any fun x => v.looseEq x := by
  unfold anyOf at h
  cases he : equalsEach key (values.filter fun x => x.str?.isNone) with
  | error e => simp [he] at h
  | ok ds =>
    have hds := equalsEach_eq_ok he
    have hd : d = match keywordsOf key values ++ ds with
        | [c] => c
        | cs => .nested [] [] cs := by
      simp only [he] at h
      unfold keywordsOf
      split at h <;> simp_all
    rw [hd, holds_alternatives (keywordsOf_append_ne_nil hds), List.any_append,
      any_holds_keywordsOf, any_holds_of_equals hds]
    simp only [any_eq_strings_or_others values, found_or, found_any]

end Shapes

/-! ## Clause by clause -/

/-- Whether a demand is met by a payload. -/
def Demand.holds (payload : Metadata) : Demand → Bool
  | must c => c.holds payload
  | mustNot c => !c.holds payload

/-- Whether a value is a text with the operand inside; an operand of another
kind is to be the value itself. -/
def hasInside (operand v : Json) : Bool :=
  match operand with
  | .str s => v.str?.any fun t => Text.contains t s
  | operand => v.looseEq operand

/-- What a clause asks of one value, negation left out. -/
def asks (c : Clause) (v : Json) : Bool :=
  if c.operator.asksInside then hasInside c.value v else c.meetsWhole v

variable {c : Clause} {payload : Metadata}

/-- An order holds when some value is in that order. -/
theorem holds_ordered {d : Condition} (hr : c.operator.isRange = true) (h : ordered c = .ok d) :
    d.holds payload = found c.field payload c.meets := by
  unfold ordered at h
  cases hv : c.value with
  | num n =>
    simp only [hv, number?, Json.num?, Option.map_some, Except.ok.injEq] at h
    rw [← h, holds_field_range]
    refine congrArg _ (funext fun v => ?_)
    cases hop : c.operator <;> simp only [hop, Operator.isRange, Bool.false_eq_true] at hr <;>
      cases v <;> simp [Range.holds, Json.num?, Range.all, Clause.meets, hop, hv, Json.compare?,
        Number.compare?]
  | _ => simp [hv, number?, Json.num?] at h

/-- A substring test holds when some value has the operand inside. -/
theorem holds_contains {key : String} {value : Json} {d : Condition}
    (h : contains key value = .ok d) : d.holds payload = found key payload (hasInside value) := by
  cases value with
  | str s =>
    obtain rfl := Except.ok.inj h
    exact holds_field_test _
  | _ => exact holds_equals h

/-- What a clause lowers to is a condition, asked for or forbidden. -/
theorem eq_of_map_eq_ok {x : Result Condition} {f : Condition → Demand} {d : Demand}
    (h : x.map f = .ok d) : ∃ a, x = .ok a ∧ d = f a := by
  cases x with
  | error e => cases h
  | ok a => exact ⟨a, rfl, (Except.ok.inj h).symm⟩

/-- **A demand holds** when some value of the field is as the clause asks, or for
a negated operator when none is. -/
theorem holds_lower {d : Demand} (h : lower c = .ok d) :
    d.holds payload = (c.operator.isNegated ^^ found c.field payload (asks c)) := by
  unfold lower at h
  unfold asks Clause.meetsWhole
  cases hop : c.operator <;> simp only [hop] at h ⊢ <;>
    obtain ⟨a, ha, rfl⟩ := eq_of_map_eq_ok h <;>
    simp only [Demand.holds, Operator.isNegated, Operator.asksInside, Bool.false_xor, Bool.true_xor,
      Bool.false_eq_true, if_false, if_true]
  case eq => exact holds_equals ha
  case ne => rw [holds_equals ha]
  case gt | gte | lt | lte => exact holds_ordered (by rw [hop]; rfl) ha
  case isIn => exact holds_anyOf ha
  case notIn => rw [holds_anyOf ha]
  case contains => exact holds_contains ha
  case notContains => rw [holds_contains ha]

/-! ## What the server finds beyond the semantics -/

/-- Whether an operand is inside a field for the server and not for the
semantics: inside an element of a list that has no element equal to it, or equal
to a field that is no list while it is no text. -/
def containsMore (operand : Json) : Json → Bool
  | .arr elems => elems.any (hasInside operand) && !elems.any fun v => v.looseEq operand
  | v => operand.str?.isNone && v.looseEq operand

/-- Whether the server finds a clause in a present field that the semantics does
not: an operand inside it, or an order of one of its elements. -/
def overreaches (c : Clause) (field : Json) : Bool :=
  if c.operator.asksInside then containsMore c.value field else c.ordersElement field

/-- A value has inside what equals it. -/
theorem hasInside_of_looseEq {operand v : Json} (h : v.looseEq operand = true) :
    hasInside operand v = true := by
  cases operand with
  | str s =>
    rw [Json.looseEq_str, decide_eq_true_eq] at h
    simp [hasInside, h, Text.contains_self]
  | _ => exact h

/-- The server finds inside a field what the semantics does, and more. -/
theorem any_hasInside_eq (operand field : Json) :
    (fieldValues field).any (hasInside operand) =
      (Filter.holds field operand ^^ containsMore operand field) := by
  cases field with
  | arr elems =>
    have hmono : elems.any (fun v => v.looseEq operand) = true →
        elems.any (hasInside operand) = true := by
      simp only [List.any_eq_true]
      exact fun ⟨v, hv, h⟩ => ⟨v, hv, hasInside_of_looseEq h⟩
    simp only [fieldValues, Filter.holds, containsMore]
    cases ha : elems.any (fun v => v.looseEq operand) <;> simp_all
  | _ =>
    cases operand <;>
      simp [fieldValues, hasInside, containsMore, Filter.holds, Json.str?, Json.looseEq, Json.same]

/-- A substring test of the semantics. -/
theorem meets_of_asksInside (hi : c.operator.asksInside = true) (field : Json) :
    c.meets field = Filter.holds field c.value := by
  cases hop : c.operator <;> simp_all [Clause.meets, Operator.asksInside]

/-- What the server finds in a field is what the semantics does, and what it
overreaches for. -/
theorem any_asks_eq (c : Clause) (field : Json) :
    (fieldValues field).any (asks c) = (c.meets field ^^ overreaches c field) := by
  unfold asks overreaches
  cases hi : c.operator.asksInside with
  | true => simp only [if_true, any_hasInside_eq, meets_of_asksInside hi]
  | false =>
    simp only [Bool.false_eq_true, if_false]
    cases field with
    | arr elems => exact Clause.any_meetsWhole hi elems
    | _ =>
      simp only [fieldValues, List.any_cons, List.any_nil, Bool.or_false, Clause.ordersElement,
        Bool.xor_false]
      exact Clause.meetsWhole_of_not_arr rfl c

/-- The server overreaches only where the semantics finds nothing. -/
theorem overreaches_of_meets {field : Json} (h : c.meets field = true) :
    overreaches c field = false := by
  unfold overreaches
  cases hi : c.operator.asksInside with
  | true =>
    rw [meets_of_asksInside hi] at h
    cases field with
    | arr elems => simp_all [containsMore, Filter.holds]
    | _ => cases hv : c.value <;> simp_all [containsMore, Filter.holds, Json.str?]
  | false =>
    cases hr : c.operator.isRange with
    | false => simp [Clause.ordersElement_of_not_isRange hr]
    | true =>
      cases field with
      | arr elems => rw [Clause.meets_arr_of_isRange hr] at h; cases h
      | _ => rfl

/-! ## Points read back -/

/-- Whether a payload field is not read back as what it is: the kept id, and
under the name of the document what is no text. -/
def hides (key : String) (v : Json) : Bool :=
  key = givenIdKey || (key = documentKey && v.str?.isNone)

/-- **A clause looks at a point's item** through its payload, hidden fields left
out. -/
theorem fieldOf_toItem (c : Clause) (p : Point) :
    c.fieldOf p.toItem = (Keyed.get? c.field p.payload).filter fun v => !hides c.field v := by
  have hne : documentKey ≠ givenIdKey := by decide
  by_cases hd : c.field = documentKey
  · have ht : c.target = .document := if_pos hd
    simp only [Clause.fieldOf, ht, Point.toItem, hd]
    cases Keyed.get? documentKey p.payload with
    | none => rfl
    | some v => cases v <;> simp [hides, hne, Json.str?, Option.filter]
  · have ht : c.target = .metadata c.field := if_neg hd
    simp only [Clause.fieldOf, ht, Point.toItem, IdKind.recover_snd]
    rw [Keyed.get?_erase, Keyed.get?_erase, if_neg (Ne.symm hd)]
    by_cases hg : c.field = givenIdKey
    · rw [if_pos hg.symm]
      cases Keyed.get? c.field p.payload <;> simp [hides, hg]
    · rw [if_neg (Ne.symm hg)]
      cases Keyed.get? c.field p.payload <;> simp [hides, hg, hd, Option.filter]

/-- Whether the server finds a clause in a payload that the semantics does not
find in the item: in a hidden field, or by overreaching. -/
def findsMore (c : Clause) (payload : Metadata) : Bool :=
  (Keyed.get? c.field payload).any fun v =>
    (hides c.field v && c.meets v) || overreaches c v

/-- **A demand is met by a payload** as the clause accepts the item, but where the
server finds more it is met for a positive operator and not for a negated one. -/
theorem holds_lower_eq {d : Demand} (h : lower c = .ok d) (p : Point) :
    d.holds p.payload =
      if findsMore c p.payload then !c.operator.isNegated else c.accepts p.toItem := by
  rw [holds_lower h, Clause.accepts_eq, fieldOf_toItem, found, findsMore, Option.any_filter]
  cases Keyed.get? c.field p.payload with
  | none => simp
  | some v =>
    have hover := @overreaches_of_meets c v
    simp only [Option.any_some, any_asks_eq]
    cases hm : c.meets v with
    | true => cases hides c.field v <;> simp [hover hm]
    | false => cases overreaches c v <;> simp

/-! ## Filter by filter -/

/-- A combined filter holds when every demand is met, and none at all passes
everything. -/
theorem passes_combine (ds : List Demand) (payload : Metadata) :
    passes (if ds.isEmpty then none else some (filterCompiler.combine ds)) payload =
      ds.all (Demand.holds payload) := by
  have hall : (filterCompiler.combine ds).holds payload = ds.all (Demand.holds payload) := by
    simp only [filterCompiler, combine, PointFilter.holds, Condition.holds, List.isEmpty_nil,
      Bool.true_or, Bool.and_true, allHold_eq, someHolds_eq]
    induction ds with
    | nil => rfl
    | cons d ds ih =>
      rw [List.all_cons, ← ih]
      cases d <;> simp [Demand.holds, Bool.and_assoc, Bool.and_left_comm]
  cases ds with
  | nil => rfl
  | cons d ds => exact hall

/-- **Point filters are exact where the server finds no more.** Nothing is left
to the client, and the point of an item passes the filter when the item read
back is accepted clause by clause, except that a clause for which the server
finds more holds of the point if it is positive and fails if it is negated. -/
theorem passes_ofItem_eq {f : Filter} {compiled : CompiledFilter PointFilter}
    (h : filterCompiler.compile f = .ok compiled) (item : Item) :
    let p := Point.ofItem item
    compiled.residual = Filter.empty ∧
      (passes compiled.native p.payload = f.clauses.all fun c =>
        if findsMore c p.payload then !c.operator.isNegated else c.accepts p.toItem) ∧
      ((∀ c ∈ f.clauses, findsMore c p.payload = false) →
        passes compiled.native p.payload = f.accepts p.toItem) := by
  intro p
  obtain ⟨-, ds, hds, rfl⟩ := FilterCompiler.compile_eq_ok_iff.1 h
  rw [FilterCompiler.serverSide_of_allServerSide rfl] at hds
  have heq := (passes_combine ds p.payload).trans
    (FilterCompiler.all_holds_eq hds fun c _ d hd => holds_lower_eq hd p)
  refine ⟨?_, heq, fun hnone => heq.trans (Filter.all_eq_accepts fun c hc => ?_)⟩
  · rw [FilterCompiler.clientSide_of_allServerSide rfl]
    rfl
  · rw [hnone c hc, if_neg Bool.false_ne_true]

/-- A point with a list, a kept document and no `owner`: nothing more is found
under a negated equality, a substring test of the document, and membership. -/
theorem passes_ofItem_eq_of_list_field :
    let f : Filter := ⟨[⟨"tags", .ne, .str "c"⟩, ⟨documentField, .contains, .str "fox"⟩,
      ⟨"tags", .isIn, .arr [.str "a", .bool true]⟩, ⟨"owner", .notContains, .str "x"⟩]⟩
    let item : Item := ⟨"00000000-0000-0000-0000-000000000001", some "a fox",
      [("tags", .arr [.str "b", .str "a"])], none⟩
    let p := Point.ofItem item
    ∃ compiled, filterCompiler.compile f = .ok compiled ∧
      (∀ c ∈ f.clauses, findsMore c p.payload = false) ∧
      passes compiled.native p.payload = f.accepts p.toItem ∧ f.accepts p.toItem = true := by
  intro f item p
  have hnone : ∀ c ∈ f.clauses, findsMore c p.payload = false := by decide
  exact ⟨_, rfl, hnone, (passes_ofItem_eq rfl item).2.2 hnone, by decide⟩

/-- A list that has a text with the operand inside passes the point filter of a
substring test, and the item read back is not accepted. -/
theorem passes_ofItem_ne_of_substring_of_element :
    ∃ (f : Filter) (compiled : CompiledFilter PointFilter) (item : Item),
      filterCompiler.compile f = .ok compiled ∧
        passes compiled.native (Point.ofItem item).payload = true ∧
        f.accepts (Point.ofItem item).toItem = false :=
  ⟨⟨[⟨"tags", .contains, .str "b"⟩]⟩, _,
    ⟨"00000000-0000-0000-0000-000000000001", none, [("tags", .arr [.str "abc"])], none⟩, rfl,
    by decide, by decide⟩

end Qdrant

end VectorBridge
