import VectorBridge.Proofs.Connection.Holding
import VectorBridge.Proofs.Family.ById
/-!
# Milvus rows told by their ids

Where keys are integers, ids that are numbers are asked for by key, and all
others by the id that stands beside the key. The first question does not look at
ids: it is answered with every row whose key is near one of the numbers, also
when the row keeps another id beside the key. `Stored.takenFor` collects these
rows. A removal by id takes them as well, and a read that meets none of them is
exact.
-/

namespace VectorBridge

/-- The items of some ids. -/
def Storage.ofIds {τ Held Row Fragment : Type} (V : Storage τ Held Row Fragment) (held : Held)
    (ids : List String) : List Item :=
  (V.items held).filter fun item => ids.contains item.id

namespace Milvus

/-- Whether an id is the text of a number that fits. -/
def isPlainNumber (id : String) : Bool := (plainNumber? id).isSome

/-- Whether some ids select a row by a number that is not its id. -/
def Schema.takes (S : Schema) (ids : List String) (row : Row) : Bool :=
  S.near ids row && !(isPlainNumber (itemOf S row).id && ids.contains (itemOf S row).id)

/-- The items that are taken for those of some ids: a number among the ids is
near their keys, and is not their id. -/
def Stored.takenFor (s : Stored) (ids : List String) : List Item :=
  (s.rows.filter (s.schema.takes ids)).map (itemOf s.schema)

/-- The expression for the ids that are numbers. -/
def Schema.numberedIn (S : Schema) (numbers : List Nat) : Expr :=
  Expr.primaryIn S.primaryField (numbers.map fun n => .num (.int (Int.ofNat n)))

variable {m m' : Memory} {name : String} {s : Stored} {c : Opened} {ids : List String}

/-! ## Rows that ids select -/

section Rows

variable {row : Row}

theorem near_of_key {S : Schema} {k : Nat} (hk : k < Word.span64)
    (hkey : Keyed.get? S.primaryField row = some (.nat k)) (ids : List String) :
    S.near ids row = nearKey (numbersOf ids) k := by
  rw [Schema.near, keyOf_nat hk hkey]

/-- The rows found by key are those near a number. -/
theorem holds_numberedIn (h : s.Sound) (hkind : s.schema.idKind = .integer) (hrow : row ∈ s.rows)
    (ids : List String) :
    (s.schema.numberedIn (numbersOf ids)).holds row = s.schema.near ids row := by
  obtain ⟨k, hk, hkey, -⟩ := (h.keys row hrow).of_integer hkind
  rw [Schema.numberedIn, holds_primaryIn hkey, near_of_key hk hkey]

/-- The rows found by the id beside the key are those of the ids that are no
numbers. -/
theorem holds_namedIn_eq (h : s.Sound) (hkind : s.schema.idKind = .integer) (hrow : row ∈ s.rows)
    (ids : List String) :
    (namedIn (namesOf ids)).holds row =
      (!isPlainNumber (itemOf s.schema row).id && ids.contains (itemOf s.schema row).id) := by
  obtain ⟨k, hk, hkey, hnone | ⟨id, hsome, hnamed⟩⟩ := (h.keys row hrow).of_integer hkind
  · have hplain : plainNumber? (itemOf s.schema row).id = some k := by
      rw [itemOf_id_of_none h.apart hnone, keyOf_nat hk hkey]
      exact plainNumber?_toString hk
    rw [holds_namedIn_of_none hnone, isPlainNumber, hplain]
    rfl
  · have hid : (itemOf s.schema row).id = id := itemOf_id_of_given h.apart hsome
    rw [holds_namedIn hsome, hid, isPlainNumber, hnamed, Bool.eq_iff_iff, List.contains_iff_mem,
      namesOf, List.mem_filter, hnamed]
    simp

/-- A row whose id is a number is found by it. -/
theorem near_of_isPlainNumber (h : s.Sound) (hkind : s.schema.idKind = .integer)
    (hrow : row ∈ s.rows) (hplain : isPlainNumber (itemOf s.schema row).id = true)
    (hid : (itemOf s.schema row).id ∈ ids) : s.schema.near ids row = true := by
  obtain ⟨k, hk, hkey, hnone | ⟨id, hsome, hnamed⟩⟩ := (h.keys row hrow).of_integer hkind
  · rw [itemOf_id_of_none h.apart hnone, keyOf_nat hk hkey] at hid
    rw [near_of_key hk hkey]
    exact nearKey_of_mem (mem_numbersOf hid hk)
  · rw [isPlainNumber, itemOf_id_of_given h.apart hsome, hnamed] at hplain
    cases hplain

/-- **A row that ids select is one of theirs, or is taken for one.** -/
theorem selects_iff (h : s.Sound) (hkind : s.schema.idKind = .integer) (hrow : row ∈ s.rows) :
    s.schema.selects ids row = true ↔
      (itemOf s.schema row).id ∈ ids ∨ itemOf s.schema row ∈ s.takenFor ids := by
  obtain ⟨k, hk, hkey, -⟩ := (h.keys row hrow).of_integer hkind
  rw [selects_of_integer h.apart hkind hkey (h.keys row hrow), ← near_of_key hk hkey,
    Bool.or_eq_true, List.contains_iff_mem]
  constructor
  · rintro (hid | hnear)
    · exact .inl hid
    · by_cases hid : (itemOf s.schema row).id ∈ ids
      · exact .inl hid
      · refine .inr (List.mem_map_of_mem (List.mem_filter.2 ⟨hrow, ?_⟩))
        rw [Schema.takes, hnear, List.contains_eq_mem, decide_eq_false hid, Bool.and_false]
        rfl
  · rintro (hid | htaken)
    · exact .inl hid
    · obtain ⟨row', hmem, heq⟩ := List.mem_map.1 htaken
      obtain ⟨hrow', htakes⟩ := List.mem_filter.1 hmem
      obtain rfl := h.eq_of_id hrow' hrow (congrArg Item.id heq)
      exact .inr (Bool.and_eq_true_iff.1 htakes).1

end Rows

/-! ## Asking for the rows of ids -/

theorem selectAll_apply (hs : Keyed.get? c.name m.collections = some s) (hc : c.schema = s.schema)
    {limit : Nat} (hlimit : limit ≤ window) (selectors : List Expr) :
    selectAll c limit selectors m =
      (.ok (selectors.flatMap fun e =>
        ((s.rows.filter e.holds).take limit).map (itemOf s.schema)), m) := by
  induction selectors with
  | nil => rfl
  | cons e rest ih =>
    have hquery : Server.query c.name (some e) 0 limit m =
        (.ok ((s.rows.filter e.holds).take limit), m) :=
      query_apply hs (by omega)
    rw [selectAll, Step.bind_of_ok hquery, Step.bind_of_ok ih, hc, List.flatMap_cons]
    rfl

/-- The two questions together; one that asks for nothing selects nothing. -/
theorem flatMap_idSelectors {S : Schema} (hkind : S.idKind = .integer) {α : Type}
    {rows : List Row} {g : List Row → List α} (hg : g [] = []) :
    (idSelectors S ids).flatMap (fun e => g (rows.filter e.holds)) =
      g (rows.filter (S.numberedIn (numbersOf ids)).holds) ++
        g (rows.filter (namedIn (namesOf ids)).holds) := by
  have hnothing : ∀ (f : Field) (row : Row), (Expr.mk [⟨f, .isIn, .list []⟩]).holds row = false := by
    intro f row
    rw [holds_isIn]
    cases Keyed.get? f.name row <;> rfl
  have hask : ∀ {b : Bool} {e : Expr}, (b = true → ∀ row, e.holds row = false) →
      (if b then [] else [e]).flatMap (fun e => g (rows.filter e.holds)) =
        g (rows.filter e.holds) := by
    intro b e hempty
    cases b with
    | false => exact List.append_nil _
    | true =>
      rw [List.filter_eq_nil_iff.2 fun row _ => by rw [hempty rfl row]; exact Bool.false_ne_true]
      exact hg.symm
  rw [idSelectors_of_integer hkind, List.flatMap_append]
  congr 1
  · refine hask fun hempty row => ?_
    rw [List.isEmpty_iff.1 hempty]
    exact hnothing _ row
  · refine hask fun hempty row => ?_
    rw [List.isEmpty_iff.1 hempty]
    exact hnothing _ row

/-- Where nothing is taken for the items of some ids, the two questions find each
row of these ids once, and the answers are not cut. -/
theorem selected_perm (h : s.Sound) (hkind : s.schema.idKind = .integer)
    (hnone : s.takenFor ids = []) :
    ((idSelectors s.schema ids).flatMap fun e =>
      ((s.rows.filter e.holds).take ids.length).map (itemOf s.schema)).Perm
      (storage.ofIds s ids) := by
  let asked (row : Row) : Bool := ids.contains (itemOf s.schema row).id
  let plain (row : Row) : Bool := isPlainNumber (itemOf s.schema row).id
  have hnumbered : s.rows.filter (s.schema.numberedIn (numbersOf ids)).holds =
      (s.rows.filter asked).filter plain := by
    rw [List.filter_filter]
    refine List.filter_congr fun row hrow => ?_
    rw [holds_numberedIn h hkind hrow, Bool.eq_iff_iff]
    constructor
    · intro hnear
      -- a row near a number that were not of these ids would be taken for one of theirs
      have htakes : ¬ s.schema.takes ids row = true :=
        List.filter_eq_nil_iff.1 (List.map_eq_nil_iff.1 hnone) row hrow
      rw [Schema.takes, hnear, Bool.true_and, Bool.not_eq_true, Bool.not_eq_false'] at htakes
      exact htakes
    · intro hboth
      obtain ⟨hplain, hasked⟩ := Bool.and_eq_true_iff.1 hboth
      exact near_of_isPlainNumber h hkind hrow hplain (List.contains_iff_mem.1 hasked)
  have hnamed : s.rows.filter (namedIn (namesOf ids)).holds =
      (s.rows.filter asked).filter fun row => !plain row := by
    rw [List.filter_filter]
    exact List.filter_congr fun row hrow => holds_namedIn_eq h hkind hrow ids
  have hwhole : ∀ p : Row → Bool, ((s.rows.filter asked).filter p).take ids.length =
      (s.rows.filter asked).filter p := by
    intro p
    have hle : (s.rows.filter asked).length ≤ ids.length :=
      h.length_filter_le fun _ _ hasked => List.contains_iff_mem.1 hasked
    exact List.take_of_length_le (Nat.le_trans (List.length_filter_le _ _) hle)
  have hcut : (([] : List Row).take ids.length).map (itemOf s.schema) = [] := by
    rw [List.take_nil, List.map_nil]
  rw [flatMap_idSelectors hkind (g := fun rows => (rows.take ids.length).map (itemOf s.schema)) hcut,
    hnumbered, hnamed, hwhole, hwhole, ← List.map_append, Storage.ofIds, Storage.items,
    List.filter_map]
  exact (List.filter_append_perm plain (s.rows.filter asked)).map _

/-- **What is found for some ids** are items of theirs and items taken for theirs;
when none are taken for theirs, each item of theirs is found once. -/
theorem fetch_apply (h : s.Sound) (hkind : s.schema.idKind = .integer)
    (ho : storage.Opened family Memory.Sound m name c s) (hids : ids.length ≤ window) :
    ∃ found, family.fetch c ids m = (.ok found, m) ∧ (ids = [] → found = []) ∧
      (∀ item ∈ found, item ∈ storage.items s ∧ (item.id ∈ ids ∨ item ∈ s.takenFor ids)) ∧
      (s.takenFor ids = [] → found.Perm (storage.ofIds s ids)) := by
  obtain rfl := opened_eq ho
  have hselect := selectAll_apply (c := ⟨name, s.schema⟩) ho.held rfl hids
    (idSelectors s.schema ids)
  refine ⟨_, Step.bind_of_ok hselect _, ?_, ?_, ?_⟩
  · rintro rfl
    rw [idSelectors_of_integer hkind]
    rfl
  · intro item hitem
    obtain ⟨e, he, hread⟩ := List.mem_flatMap.1 ((Batch.inOrderOf_perm _ _).subset hitem)
    obtain ⟨row, hfound, rfl⟩ := List.mem_map.1 hread
    obtain ⟨hrow, hholds⟩ := List.mem_filter.1 (List.mem_of_mem_take hfound)
    have hselects : s.schema.selects ids row = true := List.any_eq_true.2 ⟨e, he, hholds⟩
    exact ⟨List.mem_map_of_mem hrow, (selects_iff h hkind hrow).1 hselects⟩
  · intro hnone
    exact (Batch.inOrderOf_perm _ _).trans (selected_perm h hkind hnone)

/-- Rows of a collection that is there can be removed. -/
theorem exists_deleteAll (hs : Keyed.get? c.name m.collections = some s) (selectors : List Expr) :
    ∃ m', deleteAll c selectors m = (.ok (), m') := by
  induction selectors generalizing m s with
  | nil => exact ⟨m, rfl⟩
  | cons e rest ih =>
    have hfirst : Server.delete c.name e m = (.ok (), ⟨Keyed.insert c.name
        { s with rows := s.rows.filter fun row => !e.holds row } m.collections⟩) := by
      show Memory.changing _ _ m = _
      rw [Memory.changing, Memory.find?, hs]
    rw [deleteAll, Step.bind_of_ok hfirst]
    exact ih (Keyed.get?_insert_self _ _ _)

/-- The rows that ids select are those of the items of these ids and of the items
taken for them. -/
theorem keeping_selects (h : s.Sound) (hkind : s.schema.idKind = .integer) (ids : List String) :
    (storage.keeping s fun row => !storage.selects s ids row) =
      storage.without s (storage.ofIds s ids ++ s.takenFor ids) := by
  refine congrArg (storage.withRows s) (List.filter_congr fun row hrow => ?_)
  congr 1
  rw [Bool.eq_iff_iff, List.contains_iff_mem, List.map_append, List.mem_append]
  have hsame : ∀ {items : List Item}, items ⊆ storage.items s →
      (itemOf s.schema row).id ∈ items.map (·.id) → itemOf s.schema row ∈ items := by
    intro items hitems hid
    obtain ⟨item, hitem, heq⟩ := List.mem_map.1 hid
    obtain ⟨row', hrow', rfl⟩ := List.mem_map.1 (hitems hitem)
    obtain rfl := h.eq_of_id hrow' hrow heq
    exact hitem
  have hids : storage.ofIds s ids ⊆ storage.items s := List.filter_sublist.subset
  have htaken : s.takenFor ids ⊆ storage.items s := (List.filter_sublist.map _).subset
  constructor
  · intro hselects
    rcases (selects_iff h hkind hrow).1 hselects with hid | hmem
    · exact .inl (List.mem_map_of_mem (List.mem_filter.2
        ⟨List.mem_map_of_mem hrow, List.contains_iff_mem.2 hid⟩))
    · exact .inr (List.mem_map_of_mem hmem)
  · intro hgone
    refine (selects_iff h hkind hrow).2 (hgone.imp (fun hid => ?_) (hsame htaken))
    exact List.contains_iff_mem.1 (List.mem_filter.1 (hsame hids hid)).2

/-- **Reads and removals by id touch the items of these ids, and those taken for
them.** Take any session that calls have led to, and ids that are no more than a
query may ask for. A read succeeds and finds items of these ids or taken for
theirs; when none are taken, it finds each item of these ids once and nothing
else. A removal succeeds, leaves out the items of these ids and those taken for
them, and changes nothing else on the server. -/
theorem reads_and_removals_by_id {t : Session Memory} (ht : (Connection.milvus t).Reached)
    (hconn : t.connected = true) (hheld : Keyed.get? name t.server.collections = some s)
    (hkind : s.schema.idKind = .integer) (hids : ids.length ≤ window) {filter : Option Filter}
    (hfilter : selective filter = none) :
    (∃ found, family.getItems name ids t = (.ok found, t) ∧
      (∀ item ∈ found, item ∈ storage.items s ∧ (item.id ∈ ids ∨ item ∈ s.takenFor ids)) ∧
      (s.takenFor ids = [] → found.Perm (storage.ofIds s ids))) ∧
    ∃ t', family.deleteItems name ids filter t = (.ok (), t') ∧
      storage.Changed t.server t'.server name
        (storage.without s (storage.ofIds s ids ++ s.takenFor ids)) := by
  have hsound : t.server.Sound := ht.sound
  have h : s.Sound := hsound name s hheld
  obtain ⟨c, hattach⟩ := lawful.attach_of_held hheld
  have ho : storage.Opened family Memory.Sound t.server name c s := ⟨hsound, hattach, hheld⟩
  constructor
  · obtain ⟨found, hfetch, hnil, hmem, hperm⟩ := fetch_apply h hkind ho hids
    exact ⟨found, Family.getItems_of_fetch hconn hattach hfetch hnil, hmem, hperm⟩
  · obtain rfl := opened_eq ho
    obtain ⟨t', hdel, -, hchanged⟩ := Family.deleteItems_of_ids lawful ho hconn hfilter
      (exists_deleteAll (c := ⟨name, s.schema⟩) hheld (idSelectors s.schema ids))
    rw [keeping_selects h hkind] at hchanged
    exact ⟨t', hdel, hchanged⟩

/-! ## Items under integer keys -/

/-- A session whose server has a collection with integer keys. -/
def integerKeyed : Session Memory :=
  let schema : Schema := { Schema.plain with idKind := .integer, dimension := some 1 }
  .start (Memory.empty.withCollection "docs" schema) .empty

/-- An item without document and metadata. -/
def sample (id : String) : Item := ⟨id, none, [], some [Binary32.ofParts false 0]⟩

/-- The same after it is connected and items of some ids have been added, one at
a time. -/
def holding (ids : List String) : Session Memory :=
  ids.foldl (fun s id => (family.adapter.perform (.addItems "docs" [sample id]) s).2)
    (family.adapter.perform .connect integerKeyed).2

theorem reached_holding (ids : List String) : (Connection.milvus (holding ids)).Reached := by
  have hstart : (Connection.milvus (family.adapter.perform .connect integerKeyed).2).Reached := by
    refine @Connection.Reached.perform _ .connect trivial
      (.fresh (.milvus (.withCollection .empty _ ⟨?_, ?_, ?_, ?_, ?_⟩) _))
    all_goals decide
  unfold holding
  generalize (family.adapter.perform .connect integerKeyed).2 = s at hstart ⊢
  induction ids generalizing s with
  | nil => exact hstart
  | cons id ids ih =>
    refine ih _ (@Connection.Reached.perform _ (.addItems "docs" _) (fun item hitem => ?_) hstart)
    rw [List.mem_singleton.1 hitem]
    rfl

/-- The ids of the items that a session holds. -/
def idsOf (s : Session Memory) : Option (List String) :=
  (Keyed.get? "docs" s.server.collections).map fun stored => (storage.items stored).map (·.id)

/-- The ids of the items that are read for some ids, and of those that are left
when these are removed. -/
def readAndLeft (ids : List String) (s : Session Memory) :
    Option (List String × Option (List String)) :=
  match family.getItems "docs" ids s with
  | (.ok found, s₁) =>
    match family.deleteItems "docs" ids none s₁ with
    | (.ok (), s₂) => some (found.map (·.id), idsOf s₂)
    | _ => none
  | _ => none

theorem of_readAndLeft {ids read : List String} {left : Option (List String)} {s : Session Memory}
    (h : readAndLeft ids s = some (read, left)) :
    ∃ found s₁ s₂, family.getItems "docs" ids s = (.ok found, s₁) ∧ found.map (·.id) = read ∧
      family.deleteItems "docs" ids none s₁ = (.ok (), s₂) ∧ idsOf s₂ = left := by
  rw [readAndLeft] at h
  split at h
  · rename_i found s₁ hget
    split at h
    · rename_i s₂ hdel
      cases h
      exact ⟨found, s₁, s₂, hget, rfl, hdel, rfl⟩
    · cases h
  · cases h

/-- A number and a name are read and removed, and an item whose key is made from a
name is left. -/
theorem reads_and_removals_by_id_of_number_and_name :
    ∃ s : Stored, (Connection.milvus (holding ["7", "doc_5", "note"])).Reached ∧
      (holding ["7", "doc_5", "note"]).connected = true ∧
      Keyed.get? "docs" (holding ["7", "doc_5", "note"]).server.collections = some s ∧
      s.schema.idKind = .integer ∧ ["7", "note"].length ≤ window ∧ selective none = none ∧
      (storage.items s).map (·.id) = ["7", "doc_5", "note"] ∧
      s.takenFor ["7", "note"] = [] ∧
      (∃ found, family.getItems "docs" ["7", "note"] (holding ["7", "doc_5", "note"]) =
          (.ok found, holding ["7", "doc_5", "note"]) ∧
        (∀ item ∈ found, item ∈ storage.items s ∧
          (item.id ∈ ["7", "note"] ∨ item ∈ s.takenFor ["7", "note"])) ∧
        (s.takenFor ["7", "note"] = [] → found.Perm (storage.ofIds s ["7", "note"]))) ∧
      ∃ t', family.deleteItems "docs" ["7", "note"] none (holding ["7", "doc_5", "note"]) =
          (.ok (), t') ∧
        storage.Changed (holding ["7", "doc_5", "note"]).server t'.server "docs"
          (storage.without s (storage.ofIds s ["7", "note"] ++ s.takenFor ["7", "note"])) := by
  have hrun : (Keyed.get? "docs" (holding ["7", "doc_5", "note"]).server.collections).map
      (fun s => (s.schema.idKind, (storage.items s).map (·.id),
        (s.takenFor ["7", "note"]).map (·.id))) =
      some (.integer, ["7", "doc_5", "note"], []) := by decide +kernel
  obtain ⟨s, hheld, hfacts⟩ := Option.map_eq_some_iff.1 hrun
  obtain ⟨hkind, hrest⟩ := Prod.mk.inj hfacts
  obtain ⟨hitems, htaken⟩ := Prod.mk.inj hrest
  have hconn : (holding ["7", "doc_5", "note"]).connected = true := by decide +kernel
  have hreached := reached_holding ["7", "doc_5", "note"]
  have hlength : ["7", "note"].length ≤ window := by decide
  exact ⟨s, hreached, hconn, hheld, hkind, hlength, rfl, hitems, List.map_eq_nil_iff.1 htaken,
    reads_and_removals_by_id hreached hconn hheld hkind hlength rfl⟩

/-- A number is asked for that is no item's id: the item whose name ends in it is
read, and is removed. -/
theorem reads_and_removes_other_id_of_suffix :
    ∃ (s s₁ s₂ : Session Memory) (found : List Item), (Connection.milvus s).Reached ∧
      s.connected = true ∧ idsOf s = some ["doc_5"] ∧
      family.getItems "docs" ["5"] s = (.ok found, s₁) ∧ found.map (·.id) = ["doc_5"] ∧
      family.deleteItems "docs" ["5"] none s₁ = (.ok (), s₂) ∧ idsOf s₂ = some [] := by
  have hrun : readAndLeft ["5"] (holding ["doc_5"]) = some (["doc_5"], some []) := by
    decide +kernel
  obtain ⟨found, s₁, s₂, hget, hread, hdel, hleft⟩ := of_readAndLeft hrun
  exact ⟨holding ["doc_5"], s₁, s₂, found, reached_holding _, by decide +kernel, by decide +kernel,
    hget, hread, hdel, hleft⟩

end Milvus

end VectorBridge
