import Mathlib.Data.List.Nodup
import Mathlib.Data.List.Perm.Subperm
import VectorBridge.Proofs.Milvus.Keys
import VectorBridge.Proofs.Placing
import VectorBridge.Proofs.Session
/-!
# Writing Milvus rows

No two rows have one key, and none are read as items of one id. The second part
is the one that takes work: a row is replaced by its key, so an item that is
stored has to be written under the key that it has. With integer keys the writer
asks for the rows of the ids it writes; the answer is cut at as many rows as there
are ids, and the rows that keep one of these ids beside the key are no more than
that.
-/

namespace VectorBridge

namespace Milvus

/-- The key in a row. -/
abbrev Schema.key (S : Schema) (row : Row) : Option Json := Keyed.get? S.primaryField row

/-- The rows of a collection are keyed, and distinct in keys and in ids. -/
structure Stored.Sound (s : Stored) : Prop where
  apart : s.schema.Apart
  keys : ∀ row ∈ s.rows, s.schema.Keys row
  distinct : (s.rows.map s.schema.key).Nodup
  ids : (s.rows.map fun row => (itemOf s.schema row).id).Nodup

variable {S : Schema} {s : Stored}

/-- Rows with one id are one row. -/
theorem Stored.Sound.eq_of_id (h : s.Sound) {row row' : Row} (hrow : row ∈ s.rows)
    (hrow' : row' ∈ s.rows) (hid : (itemOf s.schema row).id = (itemOf s.schema row').id) :
    row = row' := List.inj_on_of_nodup_map h.ids hrow hrow' hid

/-- Rows of some ids are no more than the ids. -/
theorem Stored.Sound.length_filter_le (h : s.Sound) {ids : List String} {p : Row → Bool}
    (hids : ∀ row ∈ s.rows, p row = true → (itemOf s.schema row).id ∈ ids) :
    (s.rows.filter p).length ≤ ids.length := by
  have hnodup : ((s.rows.filter p).map fun row => (itemOf s.schema row).id).Nodup :=
    h.ids.sublist (List.filter_sublist.map _)
  have hsub : List.Subperm _ ids := List.subperm_of_subset hnodup fun id hid => by
    obtain ⟨row, hrow, rfl⟩ := List.mem_map.1 hid
    obtain ⟨hrow, hp⟩ := List.mem_filter.1 hrow
    exact hids row hrow hp
  have hle := hsub.length_le
  rwa [List.length_map] at hle

theorem Stored.Sound.filter (h : s.Sound) (p : Row → Bool) :
    Stored.Sound { s with rows := s.rows.filter p } where
  apart := h.apart
  keys row hrow := h.keys row (List.mem_filter.1 hrow).1
  distinct := h.distinct.sublist (List.filter_sublist.map _)
  ids := h.ids.sublist (List.filter_sublist.map _)

/-! ## Placing rows -/

/-- Keys are written alike when they are equal. -/
theorem sameKey_iff {row row' : Row} (h : S.Keys row) (h' : S.Keys row') :
    sameKey (S.key row) (S.key row') = true ↔ S.key row = S.key row' := by
  unfold Schema.key
  by_cases hkind : S.idKind = .integer
  · obtain ⟨k, -, hkey, -⟩ := h.of_integer hkind
    obtain ⟨k', -, hkey', -⟩ := h'.of_integer hkind
    rw [hkey, hkey']
    constructor
    · intro heq
      have hint : (k : Int) = k' := by simpa [Json.nat, sameKey] using heq
      rw [Int.ofNat.inj hint]
    · intro heq
      rw [nat_inj (Option.some.inj heq)]
      simp [Json.nat, sameKey]
  · obtain ⟨⟨id, hkey⟩, -⟩ := h.of_ne_integer hkind
    obtain ⟨⟨id', hkey'⟩, -⟩ := h'.of_ne_integer hkind
    rw [hkey, hkey']
    simp [sameKey]

theorem place_eq (field : String) (row : Row) (rows : List Row) :
    place field row rows =
      placeBy (fun r => sameKey (Keyed.get? field r) (Keyed.get? field row)) row rows := by
  induction rows with
  | nil => rfl
  | cons r rest ih => rw [place, placeBy, ih]

/-- A row takes the place of the one with its key, and that is the only one that
may have had its id. -/
theorem Stored.Sound.place (h : s.Sound) {row : Row} (hrow : s.schema.Keys row)
    (hkey : ∀ r ∈ s.rows, (itemOf s.schema r).id = (itemOf s.schema row).id →
      s.schema.key r = s.schema.key row) :
    Stored.Sound { s with rows := place s.schema.primaryField row s.rows } := by
  have hsame : ∀ r ∈ s.rows, sameKey (s.schema.key r) (s.schema.key row) = true ↔
      s.schema.key r = s.schema.key row := fun r hr => sameKey_iff (h.keys r hr) hrow
  have hmem : ∀ r ∈ placeBy (fun r => sameKey (s.schema.key r) (s.schema.key row)) row s.rows,
      r = row ∨ r ∈ s.rows ∧ s.schema.key r ≠ s.schema.key row :=
    fun r hr => placeBy.eq_or_mem hsame h.distinct hr
  have hdistinct := placeBy.nodup hsame h.distinct
  rw [place_eq]
  refine ⟨h.apart, fun r hr => ?_, hdistinct, ?_⟩
  · rcases hmem r hr with rfl | ⟨hold, -⟩
    · exact hrow
    · exact h.keys r hold
  · -- rows with one id would be rows with one key
    refine List.pairwise_map.2 ((List.pairwise_map.1 hdistinct).imp_of_mem ?_)
    intro r r' hr hr' hne hid
    rcases hmem r hr with rfl | ⟨hold, -⟩ <;> rcases hmem r' hr' with rfl | ⟨hold', -⟩
    · exact hne rfl
    · exact hne (hkey r' hold' hid.symm).symm
    · exact hne (hkey r hold hid)
    · exact hne (congrArg _ (h.eq_of_id hold hold' hid))

/-- Rows of distinct ids are placed one after the other. -/
theorem Stored.Sound.foldl_place {rows : List Row} (h : s.Sound)
    (hrows : ∀ row ∈ rows, s.schema.Keys row)
    (hids : (rows.map fun row => (itemOf s.schema row).id).Nodup)
    (hkey : ∀ row ∈ rows, ∀ r ∈ s.rows, (itemOf s.schema r).id = (itemOf s.schema row).id →
      s.schema.key r = s.schema.key row) :
    Stored.Sound { s with
      rows := rows.foldl (fun l row => Milvus.place s.schema.primaryField row l) s.rows } := by
  induction rows generalizing s with
  | nil => exact h
  | cons row rest ih =>
    rw [List.forall_mem_cons] at hrows hkey
    rw [List.map_cons, List.nodup_cons] at hids
    have hsame : ∀ r ∈ s.rows, sameKey (s.schema.key r) (s.schema.key row) = true ↔
        s.schema.key r = s.schema.key row := fun r hr => sameKey_iff (h.keys r hr) hrows.1
    refine ih (s := { s with rows := Milvus.place s.schema.primaryField row s.rows })
      (h.place hrows.1 hkey.1) hrows.2 hids.2 fun row' hrow' r hr hid => ?_
    rw [place_eq] at hr
    rcases placeBy.eq_or_mem hsame h.distinct hr with rfl | ⟨hold, -⟩
    · exact absurd (List.mem_map.2 ⟨row', hrow', hid.symm⟩) hids.1
    · exact hkey.2 row' hrow' r hold hid

/-! ## Asking for rows -/

section Asking

variable {m m' : Memory} {c : Opened} {limit : Nat}

/-- What a query answers of a collection that is there. -/
theorem query_eq_ok {name : String} {filter : Option Expr} {offset : Nat} {rows : List Row}
    (hs : Keyed.get? name m.collections = some s)
    (h : Memory.query name filter offset limit m = (.ok rows, m')) :
    m' = m ∧ offset + limit ≤ window ∧ rows = ((s.passing filter).drop offset).take limit := by
  unfold Memory.query at h
  split at h
  · cases h
  · rename_i hle
    rw [Memory.reading, Call.read_apply, Memory.find?, hs] at h
    cases h
    exact ⟨rfl, Nat.le_of_not_lt hle, rfl⟩

theorem query_apply {name : String} {filter : Option Expr} {offset : Nat}
    (hs : Keyed.get? name m.collections = some s) (hle : offset + limit ≤ window) :
    Memory.query name filter offset limit m =
      (.ok (((s.passing filter).drop offset).take limit), m) := by
  rw [Memory.query, if_neg (Nat.not_lt_of_le hle), Memory.reading, Call.read_apply, Memory.find?,
    hs]
  rfl

/-- The number a row stands under, and the id it stands for. -/
def ownerOf (S : Schema) (row : Row) : Option (Nat × String) :=
  ((S.key row).bind Json.u64?).map fun key => (key, (itemOf S row).id)

/-- Under an integer key the owner is the id that the row is read under. -/
theorem ownerOf_eq_some_iff {row : Row} (h : S.Keys row) (hkind : S.idKind = .integer) {k : Nat}
    {id : String} :
    ownerOf S row = some (k, id) ↔ S.key row = some (.nat k) ∧ (itemOf S row).id = id := by
  obtain ⟨k', hk', hkey, -⟩ := h.of_integer hkind
  have hrow : S.key row = some (.nat k') := hkey
  have howner : ownerOf S row = some (k', (itemOf S row).id) := by
    rw [ownerOf, hrow, Option.bind_some, u64?_nat hk']
    rfl
  rw [howner, hrow, Option.some.injEq, Option.some.injEq, Prod.mk.injEq]
  exact and_congr_left fun _ => ⟨congrArg Json.nat, nat_inj⟩

theorem owners_eq_ok {selector : Expr} {held : List (Nat × String)}
    (hs : Keyed.get? c.name m.collections = some s) (hc : c.schema = s.schema)
    (h : owners c selector limit m = (.ok held, m')) :
    m' = m ∧ limit ≤ window ∧
      held = ((s.rows.filter selector.holds).take limit).filterMap (ownerOf s.schema) := by
  obtain ⟨rows, m₁, hquery, hpure⟩ := Step.bind_eq_ok_iff.1 h
  obtain ⟨rfl, hle, rfl⟩ := query_eq_ok hs hquery
  cases hpure
  rw [← hc]
  exact ⟨rfl, by omega, rfl⟩

theorem owners_apply {selector : Expr} (hs : Keyed.get? c.name m.collections = some s)
    (hc : c.schema = s.schema) (hle : limit ≤ window) :
    owners c selector limit m =
      (.ok (((s.rows.filter selector.holds).take limit).filterMap (ownerOf s.schema)), m) := by
  have hquery : Server.query c.name (some selector) 0 limit m = _ :=
    query_apply hs (by rwa [Nat.zero_add])
  rw [owners, Step.bind_of_ok hquery, ← hc]
  rfl

theorem ownersOfAll_eq_ok {selectors : List Expr} {held : List (Nat × String)}
    (hs : Keyed.get? c.name m.collections = some s) (hc : c.schema = s.schema)
    (h : ownersOfAll c limit selectors m = (.ok held, m')) :
    m' = m ∧ (selectors ≠ [] → limit ≤ window) ∧
      held = selectors.flatMap fun e =>
        ((s.rows.filter e.holds).take limit).filterMap (ownerOf s.schema) := by
  induction selectors generalizing m held with
  | nil =>
    cases h
    exact ⟨rfl, fun hne => absurd rfl hne, rfl⟩
  | cons selector rest ih =>
    obtain ⟨first, m₁, hfirst, hrest⟩ := Step.bind_eq_ok_iff.1 h
    obtain ⟨rfl, hle, rfl⟩ := owners_eq_ok hs hc hfirst
    obtain ⟨others, m₂, hothers, hpure⟩ := Step.bind_eq_ok_iff.1 hrest
    obtain ⟨hheld, rfl⟩ := Prod.mk.inj hpure
    obtain ⟨rfl, -, rfl⟩ := ih hs hothers
    cases hheld
    exact ⟨rfl, fun _ => hle, rfl⟩

theorem ownersOfAll_apply {selectors : List Expr}
    (hs : Keyed.get? c.name m.collections = some s) (hc : c.schema = s.schema)
    (hle : selectors ≠ [] → limit ≤ window) :
    ownersOfAll c limit selectors m =
      (.ok (selectors.flatMap fun e =>
        ((s.rows.filter e.holds).take limit).filterMap (ownerOf s.schema)), m) := by
  induction selectors with
  | nil => rfl
  | cons selector rest ih =>
    have hle := hle (List.cons_ne_nil _ _)
    rw [ownersOfAll, Step.bind_of_ok (owners_apply hs hc hle), Step.bind_of_ok (ih fun _ => hle)]
    rfl

/-- A stored pair of an id and a key is a row's. -/
theorem exists_row_of_mem_held (h : s.Sound) (hkind : s.schema.idKind = .integer)
    {selectors : List Expr} {key : Nat} {id : String}
    (hmem : (key, id) ∈ selectors.flatMap fun e =>
      ((s.rows.filter e.holds).take limit).filterMap (ownerOf s.schema)) :
    ∃ row ∈ s.rows, s.schema.key row = some (.nat key) ∧ (itemOf s.schema row).id = id := by
  obtain ⟨e, -, hmem⟩ := List.mem_flatMap.1 hmem
  obtain ⟨row, hmem, howner⟩ := List.mem_filterMap.1 hmem
  have hrow : row ∈ s.rows := (List.mem_filter.1 (List.mem_of_mem_take hmem)).1
  exact ⟨row, hrow, (ownerOf_eq_some_iff (h.keys row hrow) hkind).1 howner⟩

/-- **An id that is stored beside its key is found**: the rows of such ids are no
more than the ids, so the answer is not cut. -/
theorem mem_held_of_given (h : s.Sound) {ids : List String} {row : Row} {k : Nat} {id : String}
    (hkind : s.schema.idKind = .integer) (hrow : row ∈ s.rows)
    (hkey : s.schema.key row = some (.nat k))
    (hgiven : Keyed.get? givenIdKey row = some (.str id)) (hid : id ∈ ids)
    (hnamed : plainNumber? id = none) :
    (k, id) ∈ (idSelectors s.schema ids).flatMap fun e =>
      ((s.rows.filter e.holds).take ids.length).filterMap (ownerOf s.schema) := by
  have hmem : id ∈ namesOf ids := List.mem_filter.2 ⟨hid, by rw [hnamed]; rfl⟩
  have hselector : namedIn (namesOf ids) ∈ idSelectors s.schema ids := by
    rw [idSelectors_of_integer hkind]
    refine List.mem_append_right _ ?_
    rw [if_neg fun hempty => List.ne_nil_of_mem hmem (List.isEmpty_iff.1 hempty)]
    exact List.mem_singleton_self _
  have hids : ∀ r ∈ s.rows, (namedIn (namesOf ids)).holds r = true →
      (itemOf s.schema r).id ∈ ids := by
    intro r hr hr'
    obtain ⟨-, -, -, hnone | ⟨id', hsome, -⟩⟩ := (h.keys r hr).of_integer hkind
    · rw [holds_namedIn_of_none hnone] at hr'
      cases hr'
    · rw [holds_namedIn hsome, List.contains_iff_mem] at hr'
      rw [itemOf_id_of_given h.apart hsome]
      exact (List.mem_filter.1 hr').1
  have hlength : (s.rows.filter (namedIn (namesOf ids)).holds).length ≤ ids.length :=
    h.length_filter_le hids
  refine List.mem_flatMap.2 ⟨_, hselector, ?_⟩
  rw [List.take_of_length_le hlength]
  refine List.mem_filterMap.2 ⟨row, List.mem_filter.2 ⟨hrow, ?_⟩, ?_⟩
  · rw [holds_namedIn hgiven]
    exact List.contains_iff_mem.2 hmem
  · exact (ownerOf_eq_some_iff (h.keys row hrow) hkind).2
      ⟨hkey, itemOf_id_of_given h.apart hgiven⟩

end Asking

/-! ## Assigning keys -/

/-- A key that an item may be written under: its id may stand under it, and does
where it is stored. -/
def Stored.Admits (s : Stored) (item : Item) (key : MappedId) : Prop :=
  s.schema.Maps item.id key ∧ ∀ r ∈ s.rows, (itemOf s.schema r).id = item.id →
    s.schema.key r = some (keyJson key.backend)

/-- Where keys are strings there is no choice. -/
theorem admits_of_ne_integer (h : s.Sound) (hkind : s.schema.idKind ≠ .integer) {item : Item}
    {key : MappedId} (hkey : s.schema.Maps item.id key) : s.Admits item key := by
  refine ⟨hkey, fun r hr hid => ?_⟩
  obtain ⟨⟨id, hid'⟩, hnone⟩ := (h.keys r hr).of_ne_integer hkind
  have hmaps : key = ⟨.string item.id, false⟩ := by
    unfold Schema.Maps at hkey
    split at hkey
    · rename_i hk
      exact absurd hk hkind
    · exact hkey
  rw [itemOf_id_of_none h.apart hnone, keyOf_str hid'] at hid
  rw [hmaps, Schema.key, hid', ← hid]
  rfl

/-- The key of a stored row, or else a key of its own, is one to write under. -/
theorem admits_settle (h : s.Sound) (hkind : s.schema.idKind = .integer) {ids : List String}
    {item : Item} {key : MappedId} (hitem : item.id ∈ ids) (hkey : s.schema.Maps item.id key)
    {held : List (Nat × String)}
    (hheld : held = (idSelectors s.schema ids).flatMap fun e =>
      ((s.rows.filter e.holds).take ids.length).filterMap (ownerOf s.schema)) :
    s.Admits item (settle (held.reverse.map fun (key, id) => (id, key)) item key) := by
  have hmem : ∀ {id key}, (id, key) ∈ (held.reverse.map fun (key, id) => (id, key)) ↔
      (key, id) ∈ held := by
    intro id key
    simp
  rw [settle]
  cases hlookup : (held.reverse.map fun (key, id) => (id, key)).lookup item.id with
  | some k =>
    -- the item is stored, and its row says under which key
    have hstored : (k, item.id) ∈ held := hmem.1 (mem_of_lookup hlookup)
    rw [hheld] at hstored
    obtain ⟨row, hrow, hkey', hid⟩ := exists_row_of_mem_held h hkind hstored
    obtain ⟨k', hk', hrowkey, hgiven⟩ := (h.keys row hrow).of_integer hkind
    obtain rfl : k' = k := nat_inj (Option.some.inj (hrowkey.symm.trans hkey'))
    refine ⟨?_, fun r hr hr' => ?_⟩
    · unfold Schema.Maps
      rw [hkind]
      refine ⟨k', hk', rfl, fun hne => ?_⟩
      rcases hgiven with hnone | ⟨id, hsome, hnamed⟩
      · rw [itemOf_id_of_none h.apart hnone, keyOf_nat hk' hrowkey] at hid
        exact absurd hid hne
      · rw [itemOf_id_of_given h.apart hsome] at hid
        exact hid ▸ hnamed
    · rw [h.eq_of_id hr hrow (hr'.trans hid.symm)]
      exact hrowkey
  | none =>
    refine ⟨hkey, fun r hr hid => ?_⟩
    unfold Schema.Maps at hkey
    rw [hkind] at hkey
    obtain ⟨k, hk, rfl, hne⟩ := hkey
    obtain ⟨k', hk', hrkey, hnone | ⟨id, hsome, hnamed⟩⟩ := (h.keys r hr).of_integer hkind
    · -- the id is a plain number, so it has no other key
      rw [itemOf_id_of_none h.apart hnone, keyOf_nat hk' hrkey] at hid
      have hplain : plainNumber? item.id = some k' := plainNumber?_eq_some_iff.2 ⟨hk', hid⟩
      have heq : toString k = item.id := by
        by_contra hcon
        rw [hne hcon] at hplain
        cases hplain
      rw [← heq, plainNumber?_toString hk] at hplain
      cases hplain
      exact hrkey
    · rw [itemOf_id_of_given h.apart hsome] at hid
      subst hid
      have hfound := mem_held_of_given h hkind hr hrkey hsome hitem hnamed
      rw [← hheld] at hfound
      obtain ⟨k, hsome⟩ := exists_lookup_of_mem (hmem.2 hfound)
      rw [hlookup] at hsome
      cases hsome

/-- A batch without a clash claims no key twice, and none that was claimed before. -/
theorem nodup_of_clash? {claimed claims : List (Nat × String)} (h : clash? claimed claims = none) :
    (claims.map (·.1)).Nodup ∧ ∀ claim ∈ claims, claim.1 ∉ claimed.map (·.1) := by
  induction claims generalizing claimed with
  | nil => exact ⟨List.nodup_nil, nofun⟩
  | cons claim rest ih =>
    rw [clash?] at h
    split at h
    · cases h
    · rename_i hfree
      obtain ⟨hnodup, hnew⟩ := ih h
      have hclaim : claim.1 ∉ claimed.map (·.1) := by
        intro hmem
        obtain ⟨earlier, hearlier, heq⟩ := List.mem_map.1 hmem
        have hne := List.lookup_eq_none_iff.1 hfree earlier hearlier
        exact bne_iff_ne.1 hne heq.symm
      refine ⟨List.nodup_cons.2 ⟨fun hmem => ?_, hnodup⟩, List.forall_mem_cons.2 ⟨hclaim, ?_⟩⟩
      · obtain ⟨later, hlater, heq⟩ := List.mem_map.1 hmem
        exact hnew later hlater (heq ▸ List.mem_cons_self)
      · exact fun later hlater hmem => hnew later hlater (List.mem_cons_of_mem _ hmem)

/-- No key of a batch without foreign keys is found under another id. -/
theorem owner_of_foreign? {owners claims : List (Nat × String)}
    (h : foreign? owners claims = none) :
    ∀ claim ∈ claims, ∀ owner, owners.lookup claim.1 = some owner → owner = claim.2 := by
  induction claims with
  | nil => exact nofun
  | cons claim rest ih =>
    rw [foreign?] at h
    cases hlookup : owners.lookup claim.1 with
    | none =>
      rw [hlookup] at h
      refine List.forall_mem_cons.2 ⟨fun owner howner => ?_, ih h⟩
      rw [hlookup] at howner
      cases howner
    | some owner =>
      simp only [hlookup] at h
      split at h
      · rename_i hsame
        refine List.forall_mem_cons.2 ⟨fun owner' howner' => ?_, ih h⟩
        rw [hlookup] at howner'
        exact Option.some.inj howner' ▸ hsame
      · cases h

/-- The rows that are asked for before some keys are written: as many as there are
keys, of those that are near one of them. -/
def Stored.holders (s : Stored) (claims : List (Nat × String)) : List (Nat × String) :=
  ((s.rows.filter (Expr.primaryIn s.schema.primaryField
    (claims.map fun (key, _) => .num (.int (Int.ofNat key)))).holds).take claims.length).filterMap
      (ownerOf s.schema)

/-- No key is claimed twice, and none is found in the row of another id. -/
structure Stored.Clears (s : Stored) (claims : List (Nat × String)) : Prop where
  distinct : (claims.map (·.1)).Nodup
  free : ∀ claim ∈ claims, ∀ owner,
    (s.holders claims).reverse.lookup claim.1 = some owner → owner = claim.2

theorem idSelectors_ne_nil (hkind : S.idKind = .integer) {ids : List String} (hids : ids ≠ []) :
    idSelectors S ids ≠ [] := by
  obtain ⟨id, rest, rfl⟩ := List.exists_cons_of_ne_nil hids
  rw [idSelectors_of_integer hkind]
  intro hnil
  obtain ⟨hnumbers, hnames⟩ := List.append_eq_nil_iff.1 hnil
  cases hplain : plainNumber? id with
  | some n =>
    have hmem : n ∈ numbersOf (id :: rest) :=
      List.mem_filterMap.2 ⟨id, List.mem_cons_self, hplain⟩
    rw [if_neg fun hempty => List.ne_nil_of_mem hmem (List.isEmpty_iff.1 hempty)] at hnumbers
    cases hnumbers
  | none =>
    have hmem : id ∈ namesOf (id :: rest) :=
      List.mem_filter.2 ⟨List.mem_cons_self, by rw [hplain]; rfl⟩
    rw [if_neg fun hempty => List.ne_nil_of_mem hmem (List.isEmpty_iff.1 hempty)] at hnames
    cases hnames

theorem forall₂_zipWith {α β γ : Type} {R : α → β → Prop} {R' : α → γ → Prop} {f : α → β → γ}
    {l : List α} {l' : List β} (h : List.Forall₂ R l l')
    (hf : ∀ a ∈ l, ∀ b, R a b → R' a (f a b)) : List.Forall₂ R' l (List.zipWith f l l') := by
  induction h with
  | nil => exact .nil
  | cons hab _ ih =>
    rw [List.forall_mem_cons] at hf
    exact .cons (hf.1 _ hab) (ih hf.2)

/-- The keys that some ids are found under before keys are assigned to them. -/
def Stored.held (s : Stored) (ids : List String) : List (Nat × String) :=
  (idSelectors s.schema ids).flatMap fun e =>
    ((s.rows.filter e.holds).take ids.length).filterMap (ownerOf s.schema)

/-- Integer keys that a batch may be written under: each is the one that is found or else the
one that is mapped to its item, and they pass the checks against each other and against the
rows that hold them. -/
structure Stored.Assigns (s : Stored) (items : List Item) (keys : List MappedId) : Prop where
  mapped : ∃ mapped, IdKind.integer.mapBatch items = .ok mapped ∧
    keys = List.zipWith
      (settle ((s.held (items.map (·.id))).reverse.map fun (key, id) => (id, key))) items mapped
  few : idSelectors s.schema (items.map (·.id)) ≠ [] → items.length ≤ window
  apart : clash? [] (integerKeys items keys) = none
  asked : (integerKeys items keys).length ≤ window
  free : foreign? (s.holders (integerKeys items keys)).reverse (integerKeys items keys) = none

/-- With integer keys the server is asked twice before a batch has its keys. -/
theorem assignKeys_integer_iff {m m' : Memory} {c : Opened} {items : List Item}
    {keys : List MappedId} (hs : Keyed.get? c.name m.collections = some s)
    (hc : c.schema = s.schema) (hkind : s.schema.idKind = .integer) :
    assignKeys c items m = (.ok keys, m') ↔ m' = m ∧ s.Assigns items keys := by
  have hinteger : ¬ c.schema.idKind ≠ .integer := fun hne => hne (hc ▸ hkind)
  have hmapped : c.schema.idKind.mapBatch items = IdKind.integer.mapBatch items := by
    rw [hc, hkind]
  constructor
  · intro hrun
    obtain ⟨mapped, m₁, hfirst, hassign⟩ := Step.bind_eq_ok_iff.1 hrun
    obtain ⟨hmap, rfl⟩ := Prod.mk.inj hfirst
    rw [if_neg hinteger] at hassign
    obtain ⟨held, m₂, hasked, hsettle⟩ := Step.bind_eq_ok_iff.1 hassign
    obtain ⟨rfl, hfew, hheld⟩ := ownersOfAll_eq_ok hs hc (Call.toAction_eq_ok_iff.1 hasked)
    rw [hc, List.length_map] at hfew
    rw [hc] at hheld
    generalize hsettled : List.zipWith
      (settle (held.reverse.map fun (key, id) => (id, key))) items mapped = settled at hsettle
    cases hclash : clash? [] (integerKeys items settled) with
    | some clash =>
      simp only [hclash] at hsettle
      cases hsettle
    | none =>
      simp only [hclash] at hsettle
      obtain ⟨holders, m₃, hholders, hcheck⟩ := Step.bind_eq_ok_iff.1 hsettle
      obtain ⟨rfl, hle, hfound⟩ := owners_eq_ok hs hc (Call.toAction_eq_ok_iff.1 hholders)
      rw [hc] at hfound
      cases hforeign : foreign? holders.reverse (integerKeys items settled) with
      | some foreign =>
        simp only [hforeign] at hcheck
        cases hcheck
      | none =>
        simp only [hforeign] at hcheck
        cases hcheck
        rw [hfound] at hforeign
        exact ⟨rfl, ⟨mapped, hmapped ▸ hmap, by rw [← hsettled, hheld]; rfl⟩, hfew, hclash, hle,
          hforeign⟩
  · rintro ⟨rfl, A⟩
    obtain ⟨mapped, hmap, hkeys⟩ := A.mapped
    have hheld : ownersOfAll c (items.map (·.id)).length
        (idSelectors c.schema (items.map (·.id))) m' = (.ok (s.held (items.map (·.id))), m') := by
      rw [hc, ownersOfAll_apply hs hc (by rw [List.length_map]; exact A.few)]
      rfl
    have hholders : owners c (Expr.primaryIn c.schema.primaryField
        ((integerKeys items keys).map fun (key, _) => .num (.int (Int.ofNat key))))
        (integerKeys items keys).length m' = (.ok (s.holders (integerKeys items keys)), m') := by
      rw [hc, owners_apply hs hc A.asked]
      rfl
    rw [assignKeys, Action.ofResult_bind_of_ok (hmapped ▸ hmap), if_neg hinteger]
    simp only
    rw [Step.bind_of_ok (Call.toAction_of_ok hheld), ← hkeys]
    simp only [A.apart]
    rw [Step.bind_of_ok (Call.toAction_of_ok hholders)]
    simp only [A.free]
    rfl

/-- Keys that are found or mapped are keys of their items, and stored items keep theirs. -/
theorem forall₂_admits_settle (h : s.Sound) (hkind : s.schema.idKind = .integer)
    {items : List Item} {mapped : List MappedId}
    (hmap : IdKind.integer.mapBatch items = .ok mapped)
    (hfew : idSelectors s.schema (items.map (·.id)) ≠ [] → items.length ≤ window) :
    List.Forall₂ s.Admits items (List.zipWith
      (settle ((s.held (items.map (·.id))).reverse.map fun (key, id) => (id, key)))
      items mapped) := by
  rw [← hkind] at hmap
  refine forall₂_zipWith (maps_mapFrom h.apart.kind (fun _ => ?_) hmap) ?_
  · -- a batch that could be asked for is small enough for places to be keys
    rw [Nat.zero_add]
    cases items with
    | nil => exact Nat.zero_le _
    | cons item rest =>
      have hwindow := hfew (idSelectors_ne_nil hkind (List.cons_ne_nil _ _))
      exact Nat.le_trans hwindow (by decide)
  · intro item hitem key hkey
    exact admits_settle h hkind (List.mem_map_of_mem hitem) hkey rfl

/-- **Keys are assigned so that stored items keep theirs**, and integer keys so
that none is claimed twice or found to be held. -/
theorem assignKeys_eq_ok {m m' : Memory} {c : Opened} {items : List Item} {keys : List MappedId}
    (h : s.Sound) (hs : Keyed.get? c.name m.collections = some s) (hc : c.schema = s.schema)
    (hrun : assignKeys c items m = (.ok keys, m')) :
    m' = m ∧ List.Forall₂ s.Admits items keys ∧
      (s.schema.idKind = .integer → s.Clears (integerKeys items keys)) := by
  by_cases hkind : s.schema.idKind = .integer
  · obtain ⟨rfl, A⟩ := (assignKeys_integer_iff hs hc hkind).1 hrun
    obtain ⟨mapped, hmap, rfl⟩ := A.mapped
    exact ⟨rfl, forall₂_admits_settle h hkind hmap A.few, fun _ =>
      ⟨(nodup_of_clash? A.apart).1, owner_of_foreign? A.free⟩⟩
  · obtain ⟨mapped, m₁, hmapped, hassign⟩ := Step.bind_eq_ok_iff.1 hrun
    obtain ⟨hmap, rfl⟩ := Prod.mk.inj hmapped
    rw [hc] at hmap hassign
    rw [if_pos hkind] at hassign
    cases hassign
    refine ⟨rfl, ?_, fun hinteger => absurd hinteger hkind⟩
    exact (maps_mapFrom h.apart.kind (fun hinteger => absurd hinteger hkind) hmap).imp
      fun item key hkey => admits_of_ne_integer h hkind hkey

/-- **A batch is written as rows that may be placed**: keyed, of the batch's ids,
and under the key that is stored. -/
theorem rowsOf_eq_ok (h : s.Sound) {items : List Item} {keys : List MappedId} {rows : List Row}
    (hkeys : List.Forall₂ s.Admits items keys)
    (hplain : ∀ item ∈ items, Metadata.Plain item.metadata)
    (hrows : rowsOf s.schema items keys = .ok rows) :
    (∀ row ∈ rows, s.schema.Keys row) ∧
      rows.map (fun row => (itemOf s.schema row).id) = items.map (·.id) ∧
      ∀ row ∈ rows, ∀ r ∈ s.rows, (itemOf s.schema r).id = (itemOf s.schema row).id →
        s.schema.key r = s.schema.key row := by
  induction hkeys generalizing rows with
  | nil =>
    cases hrows
    exact ⟨nofun, rfl, nofun⟩
  | @cons item key items keys hkey _ ih =>
    rw [List.forall_mem_cons] at hplain
    rw [rowsOf] at hrows
    split at hrows
    · cases hrows
    · rename_i row hrow
      split at hrows
      · cases hrows
      · rename_i rest hrest
        cases hrows
        obtain ⟨hrowKeys, hrowId⟩ := keys_rowOf h.apart hplain.1 hkey.1 hrow
        obtain ⟨hrestKeys, hrestIds, hrestStored⟩ := ih hplain.2 hrest
        refine ⟨List.forall_mem_cons.2 ⟨hrowKeys, hrestKeys⟩, ?_,
          List.forall_mem_cons.2 ⟨fun r hr hid => ?_, hrestStored⟩⟩
        · rw [List.map_cons, List.map_cons, hrowId, hrestIds]
        · rw [hkey.2 r hr (hid.trans hrowId)]
          exact (get?_rowOf h.apart hplain.1 hrow).1.symm

end Milvus

end VectorBridge
