import VectorBridge.Proofs.Columnar.Archive
import VectorBridge.Proofs.Columnar.Removal
/-!
# Tables of rosters

A roster is kept as a table: the sentinel comes first, and after it one row for
each item, in the order of the items. A table of a roster whose items fit is
sound and shows the items. Writing a batch and removing some ids come to the
same on the table and on the roster.
-/

namespace VectorBridge

namespace Columnar

/-- What a table has to be. The sentinel is the first row and no other, no two
rows have one id, and every row has a vector of the declared width, of zeros
where it is not the item's own. -/
structure Table.IsSound (t : Table) : Prop where
  sentinel : ∃ w rest, t.width = some w ∧ t.rows = .sentinel w :: rest ∧
    ∀ row ∈ rest, row.isSentinel = false
  distinct : t.Distinct
  width : ∀ row ∈ t.rows, t.width = some row.vector.length
  filler : ∀ row ∈ t.rows, row.hasVector = false → row.vector = zeros row.vector.length

/-! ## Rows of items -/

theorem Row.toItem_ofItem (width : Nat) (item : Item) : (Row.ofItem width item).toItem = item := by
  obtain ⟨id, document, metadata, embedding⟩ := item
  cases embedding <;> rfl

theorem Row.isSentinel_ofItem {width : Nat} {item : Item} (h : item.id ≠ sentinelId) :
    (Row.ofItem width item).isSentinel = false := decide_eq_false h

theorem length_zeros (width : Nat) : (zeros width).length = width := List.length_replicate

namespace Roster

/-! ## Items that fit -/

/-- An item that a collection of a width can hold: it is not reserved, and a
vector that it has is as wide. -/
structure Fits (width : Nat) (item : Item) : Prop where
  hidden : item.id ≠ sentinelId
  width : ∀ v, item.embedding = some v → v.length = width

/-- Every item fits its collection. -/
def Sound (r : Roster) : Prop := ∀ item ∈ r.items, Fits r.width item

variable {r : Roster}

theorem sound_new (width : Nat) (metric : Metric) : (new width metric).Sound :=
  fun _ h => by cases h

theorem Sound.put (hr : r.Sound) {item : Item} (hitem : Fits r.width item) :
    (r.put item).Sound := by
  intro other hother
  have hcases : other = item ∨ other ∈ r.items ∧ other.id ≠ item.id :=
    placeBy.eq_or_mem (fun _ _ => decide_eq_true_iff) r.distinct hother
  rcases hcases with rfl | ⟨hmem, -⟩
  · exact hitem
  · exact hr other hmem

theorem Sound.putAll (hr : r.Sound) {batch : List Item}
    (hbatch : ∀ item ∈ batch, Fits r.width item) : (r.putAll batch).Sound := by
  induction batch generalizing r with
  | nil => exact hr
  | cons item batch ih =>
    rw [List.forall_mem_cons] at hbatch
    exact ih (r := r.put item) (hr.put hbatch.1) hbatch.2

theorem Sound.without (hr : r.Sound) (ids : List String) (f : Filter) : (r.without ids f).Sound :=
  fun item hitem => hr item (List.mem_filter.1 hitem).1

theorem width_putAll (r : Roster) (batch : List Item) : (r.putAll batch).width = r.width := by
  induction batch generalizing r with
  | nil => rfl
  | cons item batch ih => exact ih (r.put item)

/-- Two rosters of one width and metric with the same items are one. -/
theorem eq_of_items {r' : Roster} (hw : r.width = r'.width) (hm : r.metric = r'.metric)
    (hi : r.items = r'.items) : r = r' := by
  cases r
  cases r'
  cases hw
  cases hm
  cases hi
  rfl

theorem find?_eq_some {id : String} {item : Item} (h : r.find? id = some item) : item.id = id := by
  simpa using List.find?_some h

/-- The sentinel is not among the items of a roster. -/
theorem Sound.sentinel_not_mem (hr : r.Sound) {items : List Item}
    (hitems : ∀ item ∈ items, item ∈ r.items) : sentinelId ∉ items.map (·.id) := by
  intro hmem
  obtain ⟨item, hitem, hid⟩ := List.mem_map.1 hmem
  exact (hr item (hitems item hitem)).hidden hid

/-! ## The table of a roster -/

/-- The rows under the sentinel are the items. -/
def table (r : Roster) : Table :=
  ⟨some r.width, r.metric, .sentinel r.width :: r.items.map (Row.ofItem r.width)⟩

theorem visible_table (hr : r.Sound) : r.table.visible = r.items.map (Row.ofItem r.width) := by
  have hshown : ∀ row ∈ r.items.map (Row.ofItem r.width), (!row.isSentinel) = true := by
    intro row hrow
    obtain ⟨item, hitem, rfl⟩ := List.mem_map.1 hrow
    rw [Row.isSentinel_ofItem (hr item hitem).hidden]
    rfl
  exact List.filter_eq_self.2 hshown

/-- **A table shows the items**, each as it was stored. -/
theorem items_table (hr : r.Sound) : r.table.items = r.items := by
  rw [Table.items, visible_table hr, List.map_map]
  exact List.map_id'' (Row.toItem_ofItem r.width) _

theorem length_visible_table (hr : r.Sound) : r.table.visible.length = r.items.length := by
  rw [visible_table hr, List.length_map]

/-- Looking an id up among the items that a table shows. -/
theorem find?_items_table (hr : r.Sound) :
    (fun id => r.table.items.find? fun item => item.id = id) = r.find? := by
  rw [items_table hr]
  rfl

theorem distinct_table (hr : r.Sound) : r.table.Distinct := by
  have hids : r.table.rows.map (·.id) = sentinelId :: r.items.map (·.id) := by
    simp only [table, List.map_cons, List.map_map]
    rfl
  rw [Table.Distinct, hids, List.nodup_cons]
  exact ⟨hr.sentinel_not_mem fun _ hitem => hitem, r.distinct⟩

/-- **A table of items that fit is sound.** -/
theorem isSound_table (hr : r.Sound) : r.table.IsSound where
  sentinel := by
    refine ⟨r.width, _, rfl, rfl, fun row hrow => ?_⟩
    obtain ⟨item, hitem, rfl⟩ := List.mem_map.1 hrow
    exact Row.isSentinel_ofItem (hr item hitem).hidden
  distinct := distinct_table hr
  width := by
    intro row hrow
    rcases List.mem_cons.1 hrow with rfl | hrow
    · exact congrArg some (length_zeros _).symm
    obtain ⟨item, hitem, rfl⟩ := List.mem_map.1 hrow
    cases hv : item.embedding with
    | none => simp [table, Row.ofItem, hv, length_zeros]
    | some v => simp [table, Row.ofItem, hv, (hr item hitem).width v hv]
  filler := by
    intro row hrow hflag
    rcases List.mem_cons.1 hrow with rfl | hrow
    · simp [Row.sentinel, length_zeros]
    obtain ⟨item, -, rfl⟩ := List.mem_map.1 hrow
    cases hv : item.embedding with
    | none => simp [Row.ofItem, hv, length_zeros]
    | some v => simp [Row.ofItem, hv] at hflag

/-! ## Writing and removing -/

/-- Placing the row of an item is putting the item in. -/
theorem place_table (hr : r.Sound) {item : Item} (hitem : item.id ≠ sentinelId) :
    place r.table.rows (Row.ofItem r.width item) = (r.put item).table.rows := by
  rw [place_eq_placeBy (distinct_table hr)]
  have hfirst : (Row.sentinel r.width).id ≠ (Row.ofItem r.width item).id := Ne.symm hitem
  -- the sentinel has another id, so the row goes under it
  simp only [table, placeBy, hfirst, decide_false, Bool.false_eq_true, if_false, placeBy.map_eq]
  rfl

theorem upsert_table (hr : r.Sound) {batch : List Item}
    (hbatch : ∀ item ∈ batch, Fits r.width item) :
    r.table.upsert (batch.map (Row.ofItem r.width)) = (r.putAll batch).table := by
  induction batch generalizing r with
  | nil => rfl
  | cons item batch ih =>
    rw [List.forall_mem_cons] at hbatch
    have hrest := ih (r := r.put item) (hr.put hbatch.1) hbatch.2
    rw [List.map_cons, Table.upsert, List.foldl_cons, place_table hr hbatch.1.hidden]
    exact hrest

/-- Removing the rows of some ids is leaving out the targets, when the ids are
those of the targets. -/
theorem remove_table (hr : r.Sound) {ids taken : List String} {f : Filter}
    (htaken : ∀ item ∈ r.items, taken.contains item.id = Shelf.isTarget ids f item) :
    r.table.remove taken = (r.without ids f).table := by
  have hrows : (r.items.map (Row.ofItem r.width)).filter
        (fun row => row.isSentinel || !taken.contains row.id) =
      (r.items.filter fun item => !Shelf.isTarget ids f item).map (Row.ofItem r.width) := by
    rw [List.filter_map]
    congr 1
    refine List.filter_congr fun item hitem => ?_
    show ((Row.ofItem r.width item).isSentinel || !taken.contains item.id) = _
    rw [Row.isSentinel_ofItem (hr item hitem).hidden, htaken item hitem, Bool.false_or]
  have hfirst : (Row.sentinel r.width).isSentinel = true := rfl
  simp only [table, Table.remove, List.filter_cons, hfirst, Bool.true_or, if_true, hrows]
  rfl

/-- The ids that a removal by filter takes are those of its targets. -/
theorem contains_targets (hr : r.Sound) (ids : List String) (f : Filter) {item : Item}
    (hitem : item ∈ r.items) :
    (targets r.table ids (some f)).contains item.id = Shelf.isTarget ids f item := by
  have htargets : targets r.table ids (some f) =
      (r.items.filter (Shelf.isTarget ids f)).map (·.id) := by
    simp only [targets, items_table hr, List.filter_filter]
    congr 2
    funext item
    exact Bool.and_comm _ _
  rw [htargets, Bool.eq_iff_iff, List.contains_iff_mem, List.mem_map]
  constructor
  · rintro ⟨other, hother, hid⟩
    obtain ⟨hmem, htarget⟩ := List.mem_filter.1 hother
    -- no other item has the id
    obtain rfl := List.inj_on_of_nodup_map r.distinct hmem hitem hid
    exact htarget
  · exact fun htarget => ⟨item, List.mem_filter.2 ⟨hitem, htarget⟩, rfl⟩

end Roster

end Columnar

end VectorBridge
