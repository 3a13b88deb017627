import VectorBridge.Proofs.Filter.Laws
import VectorBridge.Proofs.Number.Nearest
/-!
# Integers in filters

A clause compares an integer with an integer through the nearest doubles of both. So it finds
equal what has one nearest double, and otherwise says what the integers themselves would: an
order that it finds is there, and an equality that is there it finds. The comparison is exact
where no operand is mistaken for the field, which is so whenever one of the two is below
`2 ^ 53` in size.
-/

namespace VectorBridge

open Binary64

/-- The integers that a JSON text holds: the signed and the unsigned 64-bit range. -/
def Number.InRange (n : Int) : Prop := -(Word.half64 : Int) ≤ n ∧ n < Word.span64

instance (n : Int) : Decidable (Number.InRange n) := inferInstanceAs (Decidable (_ ∧ _))

variable {a b : Int}

theorem Number.InRange.log2_le (h : InRange a) : a.natAbs.log2 ≤ 64 := by
  obtain ⟨hlow, hhigh⟩ := h
  obtain hzero | hne := eq_or_ne a.natAbs 0
  · rw [hzero]
    decide
  · refine Nat.le_of_lt_succ ((Nat.log2_lt hne).2 ?_)
    have hhalf : Word.half64 = 2 ^ 63 := rfl
    have hspan : Word.span64 = 2 ^ 64 := rfl
    omega

/-! ## Order of nearest values -/

/-- Nearest values that differ are ordered as the integers are. -/
theorem Binary64.nearest_lt_iff (h : nearest a = nearest b → a = b) :
    nearest a < nearest b ↔ a < b := by
  constructor
  · intro hlt
    exact lt_of_not_ge fun hle => hlt.not_ge (nearest_mono hle)
  · intro hlt
    exact lt_of_le_of_ne (nearest_mono hlt.le) fun heq => hlt.ne (h heq)

namespace Operator

/-- What a comparison says of two integers, by its name. -/
def relates : Operator → Int → Int → Prop
  | eq, a, b => a = b
  | ne, a, b => a ≠ b
  | gt, a, b => b < a
  | gte, a, b => b ≤ a
  | lt, a, b => a < b
  | lte, a, b => a ≤ b
  | _, _, _ => False

/-- The operators that compare a field with a single operand as a whole. -/
def comparisons : List Operator := [eq, ne, gt, gte, lt, lte]

/-- Integers that are not mistaken for each other are compared exactly. -/
theorem relates_nearest_iff (h : nearest a = nearest b → a = b) (o : Operator) :
    o.relates (nearest a) (nearest b) ↔ o.relates a b := by
  have heq : nearest a = nearest b ↔ a = b := ⟨h, congrArg nearest⟩
  have hlt : nearest a < nearest b ↔ a < b := nearest_lt_iff h
  have hgt : nearest b < nearest a ↔ b < a := nearest_lt_iff fun hb => (h hb.symm).symm
  cases o with
  | eq => exact heq
  | ne => exact not_congr heq
  | gt => exact hgt
  | lt => exact hlt
  | gte => exact (not_lt.symm.trans (not_congr hlt)).trans not_lt
  | lte => exact (not_lt.symm.trans (not_congr hgt)).trans not_lt
  | isIn | notIn | contains | notContains => exact Iff.rfl

end Operator

/-! ## Clauses on integers -/

/-- Order finds of two integers what it finds of their nearest values. -/
theorem Json.compare?_int (ha : Number.InRange a) (hb : Number.InRange b) :
    (Json.num (.int a)).compare? (.num (.int b)) = some (compare (nearest a) (nearest b)) :=
  compare?_ofInt ha.log2_le hb.log2_le

theorem Json.looseEq_int (ha : Number.InRange a) (hb : Number.InRange b) :
    (Json.num (.int a)).looseEq (.num (.int b)) = true ↔ nearest a = nearest b := by
  have heq : (Json.num (.int a)).looseEq (.num (.int b)) = true ↔
      (Json.num (.int a)).compare? (.num (.int b)) = some .eq := decide_eq_true_iff
  rw [heq, compare?_int ha hb, Option.some.injEq, Int.compare_eq_eq]

namespace Clause

variable {item : Item} {field : String}

/-- **A comparison of two integers** says of their nearest values what its name says. -/
theorem accepts_int_iff (hfield : item.field? field = some (.num (.int a)))
    (ha : Number.InRange a) (hb : Number.InRange b) {o : Operator}
    (ho : o ∈ Operator.comparisons) :
    accepts ⟨field, o, .num (.int b)⟩ item = true ↔ o.relates (nearest a) (nearest b) := by
  have heq : accepts ⟨field, .eq, .num (.int b)⟩ item = true ↔ nearest a = nearest b := by
    rw [accepts_of_field rfl hfield]
    exact Json.looseEq_int ha hb
  have horder := Json.compare?_int ha hb
  cases o with
  | eq => exact heq
  | ne =>
    rw [accepts_of_isNegated rfl, Operator.unnegated, Bool.not_eq_true']
    exact Bool.eq_false_iff.trans (not_congr heq)
  | gt | gte | lt | lte =>
    rw [accepts_of_field rfl hfield, meets, horder]
    rcases lt_trichotomy (nearest a) (nearest b) with hlt | heq | hgt
    · simp [Operator.relates, compare_lt_iff_lt.2 hlt, hlt.le, hlt.not_ge, hlt]
    · simp [Operator.relates, heq]
    · simp [Operator.relates, compare_gt_iff_gt.2 hgt, hgt.le, hgt.not_ge, hgt]
  | isIn | notIn | contains | notContains => simp [Operator.comparisons] at ho

/-- Membership finds an operand with the nearest value of the field. -/
theorem accepts_isIn_int_iff (hfield : item.field? field = some (.num (.int a)))
    (ha : Number.InRange a) {bs : List Int} (hbs : ∀ b ∈ bs, Number.InRange b) :
    accepts ⟨field, .isIn, .arr (bs.map fun b => .num (.int b))⟩ item = true ↔
      ∃ b ∈ bs, nearest a = nearest b := by
  rw [accepts_isIn, List.any_map, List.any_eq_true]
  exact exists_congr fun b => and_congr_right fun hb =>
    accepts_int_iff hfield ha (hbs b hb) (by decide)

/-- **Integers are compared by their nearest doubles.** Every comparison of an integer field
with an integer operand is the one of their nearest doubles, and membership is such an
equality with some candidate. An order that is found is there, and an equality that is there is
found. The comparison is exact for the operands that are not mistaken for the field, so for
all of them if the field is below `2 ^ 53` in size, and for those below it whatever the
field is. -/
theorem integers_compared_by_nearest (item : Item) (field : String) (a : Int)
    (hfield : item.field? field = some (.num (.int a))) (ha : Number.InRange a) :
    let holds (o : Operator) (b : Int) : Bool := accepts ⟨field, o, .num (.int b)⟩ item
    let listed (bs : List Int) : Bool :=
      accepts ⟨field, .isIn, .arr (bs.map fun b => .num (.int b))⟩ item
    (∀ b, Number.InRange b →
      (∀ o ∈ Operator.comparisons, holds o b = true ↔ o.relates (nearest a) (nearest b)) ∧
      (holds .gt b = true → b < a) ∧ (holds .lt b = true → a < b) ∧
      (b ≤ a → holds .gte b = true) ∧ (a ≤ b → holds .lte b = true) ∧
      (a = b → holds .eq b = true)) ∧
    (∀ b, Number.InRange b → (nearest a = nearest b → a = b) →
      ∀ o ∈ Operator.comparisons, holds o b = true ↔ o.relates a b) ∧
    (∀ bs : List Int, (∀ b ∈ bs, Number.InRange b) →
      (listed bs = true ↔ ∃ b ∈ bs, nearest a = nearest b) ∧
      ((∀ b ∈ bs, nearest a = nearest b → a = b) → (listed bs = true ↔ a ∈ bs))) ∧
    ∀ b : Int, a.natAbs < 2 ^ 53 ∨ b.natAbs < 2 ^ 53 → nearest a = nearest b → a = b := by
  intro holds listed
  have hiff : ∀ b, Number.InRange b → ∀ o ∈ Operator.comparisons,
      (holds o b = true ↔ o.relates (nearest a) (nearest b)) :=
    fun b hb o ho => accepts_int_iff hfield ha hb ho
  refine ⟨fun b hb => ⟨hiff b hb, ?_, ?_, ?_, ?_, ?_⟩, fun b hb hkept o ho => ?_,
    fun bs hbs => ⟨accepts_isIn_int_iff hfield ha hbs, fun hkept => ?_⟩,
    fun b hsmall => eq_of_nearest_eq hsmall⟩
  · intro hgt
    have hlt : nearest b < nearest a := (hiff b hb .gt (by decide)).1 hgt
    exact nearest_mono.reflect_lt hlt
  · intro hlt
    have hlt : nearest a < nearest b := (hiff b hb .lt (by decide)).1 hlt
    exact nearest_mono.reflect_lt hlt
  · exact fun hle => (hiff b hb .gte (by decide)).2 (nearest_mono hle)
  · exact fun hle => (hiff b hb .lte (by decide)).2 (nearest_mono hle)
  · exact fun heq => (hiff b hb .eq (by decide)).2 (congrArg nearest heq)
  · exact (hiff b hb o ho).trans (Operator.relates_nearest_iff hkept o)
  · rw [accepts_isIn_int_iff hfield ha hbs]
    constructor
    · rintro ⟨b, hb, heq⟩
      rwa [hkept b hb heq]
    · exact fun hmem => ⟨a, hmem, rfl⟩

/-- A large identifier is told from a small one and from a larger one that is not near, and
compared exactly with a list of both. -/
theorem integers_compared_by_nearest_of_identifier :
    let item : Item := ⟨"1", none, [("n", .num (.int 9007199254740993))], none⟩
    item.field? "n" = some (.num (.int 9007199254740993)) ∧
      Number.InRange 9007199254740993 ∧
      accepts ⟨"n", .gt, .num (.int 7)⟩ item = true ∧
      accepts ⟨"n", .lt, .num (.int 9007199254740996)⟩ item = true ∧
      ¬ accepts ⟨"n", .isIn, .arr ([7, 9007199254740996].map fun b => .num (.int b))⟩ item =
        true := by
  intro item
  have hfield : item.field? "n" = some (.num (.int 9007199254740993)) := rfl
  have hrange : Number.InRange 9007199254740993 := by decide
  obtain ⟨-, hexact, hlisted, hsmall⟩ :=
    integers_compared_by_nearest item "n" 9007199254740993 hfield hrange
  have hnear : nearest 9007199254740993 = nearest 9007199254740996 →
      (9007199254740993 : Int) = 9007199254740996 := by decide +kernel
  refine ⟨hfield, hrange, ?_, ?_, ?_⟩
  · have hlarger : Operator.relates .gt 9007199254740993 7 := by
      show (7 : Int) < 9007199254740993
      decide
    exact (hexact 7 (by decide) (hsmall 7 (by decide)) .gt (by decide)).2 hlarger
  · have hsmaller : Operator.relates .lt 9007199254740993 9007199254740996 := by
      show (9007199254740993 : Int) < 9007199254740996
      decide
    exact (hexact _ (by decide) hnear .lt (by decide)).2 hsmaller
  · intro hin
    have hkept : ∀ b ∈ [7, 9007199254740996], nearest 9007199254740993 = nearest b →
        9007199254740993 = b := by
      intro b hb
      simp only [List.mem_cons, List.not_mem_nil, or_false] at hb
      obtain rfl | rfl := hb
      · exact hsmall 7 (by decide)
      · exact hnear
    have hmem := ((hlisted [7, 9007199254740996] (by decide)).2 hkept).1 hin
    revert hmem
    decide

/-- Two identifiers with one nearest double are taken for each other: a field equals an operand
that is larger by one, is not below it, and is found in a list in which it does not stand. -/
theorem identifiers_confused :
    let item : Item := ⟨"1", none, [("n", .num (.int 9007199254740992))], none⟩
    item.field? "n" = some (.num (.int 9007199254740992)) ∧
      Number.InRange 9007199254740992 ∧ Number.InRange 9007199254740993 ∧
      (9007199254740992 : Int) < 9007199254740993 ∧
      accepts ⟨"n", .eq, .num (.int 9007199254740993)⟩ item = true ∧
      accepts ⟨"n", .gte, .num (.int 9007199254740993)⟩ item = true ∧
      accepts ⟨"n", .lt, .num (.int 9007199254740993)⟩ item = false ∧
      accepts ⟨"n", .isIn, .arr [.num (.int 9007199254740993)]⟩ item = true := by
  exact ⟨rfl, by decide, by decide, by decide, by decide +kernel, by decide +kernel,
    by decide +kernel, by decide +kernel⟩

end Clause

end VectorBridge
