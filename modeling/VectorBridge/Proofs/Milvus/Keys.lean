import Mathlib.Data.List.Forall2
import Mathlib.Data.List.TakeWhile
import VectorBridge.Milvus.Memory
import VectorBridge.Milvus.Store
import VectorBridge.Proofs.Identifier
import VectorBridge.Proofs.Number
import VectorBridge.Proofs.Number.Text
/-!
# Keys of Milvus rows

Where keys are strings a row stands under the id of its item. Where they are
integers, a row whose id is a number stands under that number and keeps no id
beside it; every other id stands in the metadata, under whatever key it was
given. This file is about how ids and keys determine each other, row by row.
-/

namespace VectorBridge

theorem trailingNumber?_toString {n : Nat} (h : n < Word.span64) :
    trailingNumber? (toString n) = some n := by
  have hall : ((toString n).toList.reverse.takeWhile Text.isDigit).reverse =
      (toString n).toList := by
    rw [List.takeWhile_eq_self_iff.2, List.reverse_reverse]
    exact fun c hc => Text.isDigit_of_mem_toString (List.mem_reverse.1 hc)
  have hempty : (toString n).toList.isEmpty = false :=
    List.isEmpty_eq_false_iff.2 (Text.toString_toList_ne_nil n)
  simp only [trailingNumber?, hall, hempty, Text.natOfDigits_toString, Bool.false_eq_true,
    reduceIte, h]

theorem lt_of_trailingNumber? {id : String} {n : Nat} (h : trailingNumber? id = some n) :
    n < Word.span64 := by
  unfold trailingNumber? at h
  simp only at h
  split at h
  · cases h
  · split at h
    · rename_i hlt
      cases h
      exact hlt
    · cases h

namespace Milvus

/-- An id is a plain number when it is the text of one that fits. -/
theorem plainNumber?_eq_some_iff {id : String} {n : Nat} :
    plainNumber? id = some n ↔ n < Word.span64 ∧ toString n = id := by
  constructor
  · intro h
    unfold plainNumber? at h
    split at h
    · rename_i m hm
      split at h
      · rename_i heq
        cases h
        have hle := Text.le_of_natUpTo? hm
        have hpos : 0 < Word.span64 := by decide
        exact ⟨by omega, heq⟩
      · cases h
    · cases h
  · rintro ⟨hlt, rfl⟩
    have hle : n ≤ Word.span64 - 1 := by omega
    rw [plainNumber?, Text.natUpTo?_toString hle]
    exact if_pos rfl

theorem plainNumber?_toString {n : Nat} (h : n < Word.span64) :
    plainNumber? (toString n) = some n := plainNumber?_eq_some_iff.2 ⟨h, rfl⟩

/-! ## Rows -/

/-- A schema whose fields do not get into each other's way, with keys of a kind
that a server has. -/
structure Schema.Apart (S : Schema) : Prop where
  primary_ne_document : S.primaryField ≠ documentFieldName
  primary_ne_vector : S.primaryField ≠ S.vectorField
  primary_ne_given : S.primaryField ≠ givenIdKey
  vector_ne_given : S.vectorField ≠ givenIdKey
  kind : S.idKind ≠ .uuid

/-- A row under a key of the schema's kind, with an id beside it where the key
does not tell it. -/
def Schema.Keys (S : Schema) (row : Row) : Prop :=
  match S.idKind with
  | .integer => ∃ k < Word.span64, Keyed.get? S.primaryField row = some (.nat k) ∧
      (Keyed.get? givenIdKey row = none ∨
        ∃ id, Keyed.get? givenIdKey row = some (.str id) ∧ plainNumber? id = none)
  | _ => (∃ id, Keyed.get? S.primaryField row = some (.str id)) ∧
      Keyed.get? givenIdKey row = none

variable {S : Schema} {row : Row}

theorem Schema.Keys.of_integer (h : S.Keys row) (hkind : S.idKind = .integer) :
    ∃ k < Word.span64, Keyed.get? S.primaryField row = some (.nat k) ∧
      (Keyed.get? givenIdKey row = none ∨
        ∃ id, Keyed.get? givenIdKey row = some (.str id) ∧ plainNumber? id = none) := by
  unfold Schema.Keys at h
  rwa [hkind] at h

theorem Schema.Keys.of_ne_integer (h : S.Keys row) (hkind : S.idKind ≠ .integer) :
    (∃ id, Keyed.get? S.primaryField row = some (.str id)) ∧
      Keyed.get? givenIdKey row = none := by
  unfold Schema.Keys at h
  split at h
  · rename_i hk
    exact absurd hk hkind
  · exact h

theorem document_ne_given : documentFieldName ≠ givenIdKey := by decide

/-- The fields of the schema are taken off a row before its id is read. -/
theorem get?_given_erase (hS : S.Apart) (row : Row) :
    Keyed.get? givenIdKey (Keyed.erase S.vectorField (Keyed.erase documentFieldName
      (Keyed.erase S.primaryField row))) = Keyed.get? givenIdKey row := by
  rw [Keyed.get?_erase_of_ne hS.vector_ne_given, Keyed.get?_erase_of_ne document_ne_given,
    Keyed.get?_erase_of_ne hS.primary_ne_given]

theorem itemOf_id_of_given (hS : S.Apart) {id : String}
    (h : Keyed.get? givenIdKey row = some (.str id)) : (itemOf S row).id = id :=
  IdKind.recover_of_given ((get?_given_erase hS row).trans h)

theorem itemOf_id_of_none (hS : S.Apart) (h : Keyed.get? givenIdKey row = none) :
    (itemOf S row).id = (keyOf S row).text :=
  IdKind.recover_of_plain ((get?_given_erase hS row).trans h)

theorem plain_itemOf (S : Schema) (row : Row) : Metadata.Plain (itemOf S row).metadata :=
  IdKind.plain_recover _ _

theorem keyOf_str {id : String} (h : Keyed.get? S.primaryField row = some (.str id)) :
    keyOf S row = .string id := by
  rw [keyOf, h]

theorem u64?_nat {k : Nat} (h : k < Word.span64) : (Json.nat k).u64? = some k := by
  have hk : (0 : Int) ≤ k ∧ (k : Int) < (Word.span64 : Nat) := by
    generalize Word.span64 = span at h ⊢
    omega
  show (if (0 : Int) ≤ k ∧ (k : Int) < (Word.span64 : Nat) then some (k : Int).toNat else none) =
    some k
  rw [if_pos hk, Int.toNat_natCast]

theorem nat_inj {k k' : Nat} (h : Json.nat k = Json.nat k') : k = k' := by
  have hnum : Number.int k = Number.int k' := Json.num.inj h
  have hint : (k : Int) = k' := Number.int.inj hnum
  omega

theorem keyOf_num {n : Number} {k : Nat} (h : Keyed.get? S.primaryField row = some (.num n))
    (hk : (Json.num n).u64? = some k) : keyOf S row = .integer k := by
  rw [keyOf, h]
  simp only [hk]

theorem keyOf_nat {k : Nat} (hk : k < Word.span64)
    (h : Keyed.get? S.primaryField row = some (.nat k)) : keyOf S row = .integer k := by
  have hu := u64?_nat hk
  unfold Json.nat at h hu
  exact keyOf_num h hu

/-! ## Selecting rows by id -/

/-- Whether some expression for some ids holds of a row. -/
def Schema.selects (S : Schema) (ids : List String) (row : Row) : Bool :=
  (idSelectors S ids).any fun e => e.holds row

theorem listToJson_eq (ls : List Literal) : Literal.listToJson ls = ls.map Literal.toJson := by
  induction ls with
  | nil => rfl
  | cons l rest ih => rw [Literal.listToJson, ih, List.map_cons]

/-- A field is one of some literals. -/
theorem holds_isIn (f : Field) (ls : List Literal) (row : Row) :
    (Expr.mk [⟨f, .isIn, .list ls⟩]).holds row =
      (Keyed.get? f.name row).any fun v => ls.any fun l => v.looseEq l.toJson := by
  simp only [Expr.holds, List.all_cons, List.all_nil, Bool.and_true, Term.holds]
  cases Keyed.get? f.name row with
  | none => rfl
  | some v =>
    simp only [Literal.toJson, elements, listToJson_eq, List.any_map, Option.any_some]
    rfl

theorem any_str (id : String) (ids : List String) :
    ((ids.map Literal.str).any fun l => (Json.str id).looseEq l.toJson) = ids.contains id := by
  rw [List.any_map, List.contains_eq_any_beq]
  rfl

/-- Where keys are strings, ids select the rows of these ids. -/
theorem selects_of_ne_integer (hS : S.Apart) (hkind : S.idKind ≠ .integer) (h : S.Keys row)
    (ids : List String) : S.selects ids row = ids.contains (itemOf S row).id := by
  obtain ⟨⟨id, hkey⟩, hgiven⟩ := h.of_ne_integer hkind
  rw [itemOf_id_of_none hS hgiven, keyOf_str hkey, Schema.selects, idSelectors, if_pos hkind]
  simp only [Expr.primaryIn, List.any_cons, List.any_nil, Bool.or_false, holds_isIn, Field.name,
    hkey, Option.any_some, any_str]
  rfl

/-- The numbers among some ids. -/
def numbersOf (ids : List String) : List Nat := ids.filterMap plainNumber?

/-- Whether a key equals some number, both taken for binary64 values. -/
def nearKey (numbers : List Nat) (k : Nat) : Bool :=
  numbers.any fun n => (Number.int k).looseEq (.int n)

theorem nearKey_of_mem {numbers : List Nat} {k : Nat} (h : k ∈ numbers) :
    nearKey numbers k = true :=
  List.any_eq_true.2 ⟨k, h, Number.looseEq_int_self k⟩

theorem mem_numbersOf {ids : List String} {k : Nat} (h : toString k ∈ ids) (hk : k < Word.span64) :
    k ∈ numbersOf ids := List.mem_filterMap.2 ⟨_, h, plainNumber?_toString hk⟩

/-- A key is one of some numbers, as the server compares them. -/
theorem holds_primaryIn {k : Nat} (hkey : Keyed.get? S.primaryField row = some (.nat k))
    (numbers : List Nat) :
    (Expr.primaryIn S.primaryField (numbers.map fun n => .num (.int (Int.ofNat n)))).holds row =
      nearKey numbers k := by
  simp only [Expr.primaryIn, holds_isIn, Field.name, hkey, Option.any_some, List.any_map]
  rfl

/-- The expression for the ids that stand in the metadata. -/
def namedIn (named : List String) : Expr :=
  ⟨[⟨.dynamic givenIdKey, .isIn, .list (named.map .str)⟩]⟩

/-- The id beside a key is one of some ids. -/
theorem holds_namedIn {id : String} (hgiven : Keyed.get? givenIdKey row = some (.str id))
    (named : List String) : (namedIn named).holds row = named.contains id := by
  rw [namedIn, holds_isIn, show (Field.dynamic givenIdKey).name = givenIdKey from rfl, hgiven,
    Option.any_some, any_str]

theorem holds_namedIn_of_none (hgiven : Keyed.get? givenIdKey row = none) (named : List String) :
    (namedIn named).holds row = false := by
  rw [namedIn, holds_isIn, show (Field.dynamic givenIdKey).name = givenIdKey from rfl, hgiven,
    Option.any_none]

/-- The ids that stand in the metadata. -/
def namesOf (ids : List String) : List String := ids.filter fun id => (plainNumber? id).isNone

theorem idSelectors_of_integer (hkind : S.idKind = .integer) (ids : List String) :
    idSelectors S ids =
      (if (numbersOf ids).isEmpty then [] else
        [Expr.primaryIn S.primaryField
          ((numbersOf ids).map fun n => .num (.int (Int.ofNat n)))]) ++
      (if (namesOf ids).isEmpty then [] else [namedIn (namesOf ids)]) := by
  rw [idSelectors, if_neg (not_not_intro hkind)]
  rfl

/-- **Where keys are integers**, ids select the rows of these ids, and those
whose keys are taken for one of the numbers among the ids. -/
theorem selects_of_integer (hS : S.Apart) (hkind : S.idKind = .integer) {k : Nat}
    (hkey : Keyed.get? S.primaryField row = some (.nat k)) (h : S.Keys row) (ids : List String) :
    S.selects ids row = (ids.contains (itemOf S row).id || nearKey (numbersOf ids) k) := by
  have hnumeric : ∀ numbers : List Nat, ((if numbers.isEmpty then [] else
      [Expr.primaryIn S.primaryField (numbers.map fun n => .num (.int (Int.ofNat n)))]).any
        fun e => e.holds row) = nearKey numbers k := by
    intro numbers
    split
    · rename_i hempty
      rw [List.isEmpty_iff.1 hempty]
      rfl
    · rw [List.any_cons, List.any_nil, Bool.or_false, holds_primaryIn hkey]
  have hnamed : ∀ named : List String, ((if named.isEmpty then [] else [namedIn named]).any
      fun e => e.holds row) = (namedIn named).holds row := by
    intro named
    split
    · rename_i hempty
      rw [List.isEmpty_iff.1 hempty, namedIn, holds_isIn]
      cases Keyed.get? (Field.dynamic givenIdKey).name row <;> rfl
    · rw [List.any_cons, List.any_nil, Bool.or_false]
  rw [Schema.selects, idSelectors_of_integer hkind, List.any_append, hnumeric, hnamed]
  obtain ⟨k', hk', hkey', hgiven⟩ := h.of_integer hkind
  obtain rfl : k' = k := nat_inj (Option.some.inj (hkey'.symm.trans hkey))
  rcases hgiven with hnone | ⟨id, hsome, hid⟩
  · -- the id is the number of the key, so a row of one of the ids has a near key
    rw [holds_namedIn_of_none hnone, itemOf_id_of_none hS hnone, keyOf_nat hk' hkey',
      Bool.or_false]
    cases hmem : ids.contains (BackendId.integer k').text with
    | false => rw [Bool.false_or]
    | true =>
      rw [Bool.true_or]
      exact nearKey_of_mem (mem_numbersOf (List.contains_iff_mem.1 hmem) hk')
  · rw [holds_namedIn hsome, itemOf_id_of_given hS hsome, Bool.or_comm]
    congr 1
    rw [Bool.eq_iff_iff, List.contains_iff_mem, List.contains_iff_mem, namesOf, List.mem_filter,
      hid]
    simp

/-! ## Rows of items -/

/-- A key that an id may stand under in a schema. -/
def Schema.Maps (S : Schema) (id : String) (m : MappedId) : Prop :=
  match S.idKind with
  | .integer => ∃ k < Word.span64, m = ⟨.integer k, toString k != id⟩ ∧
      (toString k ≠ id → plainNumber? id = none)
  | _ => m = ⟨.string id, false⟩

/-- A row has its key, and under the reserved key the item's id where it keeps that,
and else what the item has there. -/
theorem get?_rowOf_given (hS : S.Apart) {item : Item} {m : MappedId}
    (h : rowOf S item m = .ok row) :
    Keyed.get? S.primaryField row = some (keyJson m.backend) ∧
      Keyed.get? givenIdKey row =
        if m.keepsId then some (.str item.id) else Keyed.get? givenIdKey item.metadata := by
  rw [rowOf] at h
  split at h
  · cases h
  · obtain rfl := Except.ok.inj h
    split
    · rw [Keyed.get?_insert_of_ne hS.primary_ne_given.symm,
        Keyed.get?_insert_of_ne hS.primary_ne_vector.symm,
        Keyed.get?_insert_of_ne hS.primary_ne_document.symm, Keyed.get?_insert_self,
        Keyed.get?_insert_self]
      exact ⟨rfl, rfl⟩
    · rw [Keyed.get?_insert_of_ne hS.primary_ne_vector.symm,
        Keyed.get?_insert_of_ne hS.primary_ne_document.symm, Keyed.get?_insert_self,
        Keyed.get?_insert_of_ne hS.vector_ne_given, Keyed.get?_insert_of_ne document_ne_given,
        Keyed.get?_insert_of_ne hS.primary_ne_given]
      exact ⟨rfl, rfl⟩

theorem get?_rowOf (hS : S.Apart) {item : Item} {m : MappedId}
    (hplain : Metadata.Plain item.metadata) (h : rowOf S item m = .ok row) :
    Keyed.get? S.primaryField row = some (keyJson m.backend) ∧
      Keyed.get? givenIdKey row = if m.keepsId then some (.str item.id) else none := by
  have hrow := get?_rowOf_given hS h
  rwa [show Keyed.get? givenIdKey item.metadata = none from hplain] at hrow

/-- The row of an item is keyed, and read as the item's id. -/
theorem keys_rowOf (hS : S.Apart) {item : Item} {m : MappedId}
    (hplain : Metadata.Plain item.metadata) (hm : S.Maps item.id m)
    (h : rowOf S item m = .ok row) : S.Keys row ∧ (itemOf S row).id = item.id := by
  obtain ⟨hkey, hgiven⟩ := get?_rowOf hS hplain h
  unfold Schema.Maps at hm
  unfold Schema.Keys
  split at hm
  · obtain ⟨k, hk, rfl, hnamed⟩ := hm
    by_cases hid : toString k = item.id
    · have hnone : Keyed.get? givenIdKey row = none :=
        hgiven.trans (if_neg fun hne => bne_iff_ne.1 hne hid)
      refine ⟨⟨k, hk, hkey, .inl hnone⟩, ?_⟩
      rw [itemOf_id_of_none hS hnone, keyOf_nat hk hkey]
      exact hid
    · have hsome : Keyed.get? givenIdKey row = some (.str item.id) :=
        hgiven.trans (if_pos (bne_iff_ne.2 hid))
      exact ⟨⟨k, hk, hkey, .inr ⟨_, hsome, hnamed hid⟩⟩, itemOf_id_of_given hS hsome⟩
  · subst hm
    have hnone : Keyed.get? givenIdKey row = none := hgiven
    have hid : (itemOf S row).id = item.id := by
      rw [itemOf_id_of_none hS hnone, keyOf_str hkey]
      rfl
    exact ⟨⟨⟨_, hkey⟩, hnone⟩, hid⟩

/-! ## Keys of a batch -/

/-- A key of its own is one that the id may stand under. -/
theorem maps_of_map? {id : String} {m : MappedId} (hkind : S.idKind ≠ .uuid)
    (h : S.idKind.map? id = some m) : S.Maps id m := by
  unfold Schema.Maps
  unfold IdKind.map? at h
  split at h
  · rename_i hk
    simp only [hk]
    cases h
    rfl
  · rename_i hk
    exact absurd hk hkind
  · rename_i hk
    simp only [hk]
    obtain ⟨n, hn, rfl⟩ := Option.map_eq_some_iff.1 h
    refine ⟨n, lt_of_trailingNumber? hn, rfl, fun hne => ?_⟩
    -- a plain number ends in itself
    cases hplain : plainNumber? id with
    | none => rfl
    | some p =>
      obtain ⟨hlt, rfl⟩ := plainNumber?_eq_some_iff.1 hplain
      rw [trailingNumber?_toString hlt] at hn
      cases hn
      exact absurd rfl hne

/-- The place in a batch is a key for an id that has none of its own. -/
theorem maps_position {id : String} {position : Nat}
    (hposition : S.idKind = .integer → position < Word.span64)
    (h : S.idKind.map? id = none) : S.Maps id ⟨.integer position, true⟩ := by
  unfold Schema.Maps
  unfold IdKind.map? at h
  split at h
  · cases h
  · cases h
  · rename_i hk
    simp only [hk]
    have htrailing : trailingNumber? id = none := Option.map_eq_none_iff.1 h
    have hnone : plainNumber? id = none := by
      cases hplain : plainNumber? id with
      | none => rfl
      | some p =>
        obtain ⟨hlt, rfl⟩ := plainNumber?_eq_some_iff.1 hplain
        rw [trailingNumber?_toString hlt] at htrailing
        cases htrailing
    have hne : toString position ≠ id := by
      rintro rfl
      rw [trailingNumber?_toString (hposition hk)] at htrailing
      cases htrailing
    refine ⟨position, hposition hk, ?_, fun _ => hnone⟩
    have hkeeps : (toString position != id) = true := bne_iff_ne.2 hne
    rw [hkeeps]

/-- A batch is given keys that its ids may stand under. -/
theorem maps_mapFrom {position : Nat} {seen : List (BackendId × String)} {items : List Item}
    {mapped : List MappedId} (hkind : S.idKind ≠ .uuid)
    (hposition : S.idKind = .integer → position + items.length ≤ Word.span64)
    (h : S.idKind.mapFrom position seen items = .ok mapped) :
    List.Forall₂ (fun item m => S.Maps item.id m) items mapped := by
  induction items generalizing position seen mapped with
  | nil =>
    cases h
    exact .nil
  | cons item items ih =>
    rw [IdKind.mapFrom] at h
    split at h
    · cases h
    · split at h
      · rename_i ms hms
        cases h
        refine .cons ?_ (ih (fun hk => ?_) hms)
        · cases hmap : S.idKind.map? item.id with
          | some m => exact maps_of_map? hkind hmap
          | none =>
            refine maps_position (fun hk => ?_) hmap
            have := hposition hk
            rw [List.length_cons] at this
            omega
        · have := hposition hk
          rw [List.length_cons] at this
          omega
      · cases h

end Milvus

end VectorBridge
