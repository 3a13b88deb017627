import Mathlib.Data.List.Basic
import VectorBridge.Proofs.Catalog
import VectorBridge.Proofs.Keyed
/-!
# Items filed under their ids

In a collection of a catalog every item stands under its own id, whatever was put
in or taken out. So the entries, the look-ups and the ids tell the same: some ids
look up their items, and what passes a filter comes in ascending order of the
ids.
-/

namespace VectorBridge

namespace Shelf

/-- Every item stands under its id. -/
def Filed (d : Shelf) : Prop :=
  ∀ (id : String) (item : Item), d.items[id]? = some item → item.id = id

variable {d : Shelf}

theorem filed_empty (width : Nat) : Filed ⟨width, ∅⟩ := fun _ _ h => by simp at h

theorem Filed.id_of_mem (hd : d.Filed) {e : String × Item} (he : e ∈ d.items.toList) :
    e.2.id = e.1 := hd e.1 e.2 (Std.ExtTreeMap.mem_toList_iff_getElem?_eq_some.1 he)

/-! ## Putting in and taking out -/

theorem Filed.put (hd : d.Filed) (batch : List Item) : (d.put batch).Filed := by
  intro id item h
  obtain ⟨width, items⟩ := d
  rw [Shelf.put] at h
  unfold Filed at hd
  induction batch generalizing items with
  | nil => exact hd id item h
  | cons first batch ih =>
    refine ih (items.insert first.id first) (fun id item h => ?_) h
    rw [Std.ExtTreeMap.getElem?_insert] at h
    by_cases hid : first.id = id
    · simp only [hid, Std.compare_self, reduceIte, Option.some.injEq] at h
      rw [← h, hid]
    · exact hd id item (by simpa [hid] using h)

/-- Putting items in is inserting them into the list of the entries. -/
theorem toList_put (d : Shelf) (batch : List Item) :
    (d.put batch).items.toList =
      batch.foldl (fun entries item => Keyed.insert item.id item entries) d.items.toList := by
  obtain ⟨width, items⟩ := d
  simp only [Shelf.put]
  induction batch generalizing items with
  | nil => rfl
  | cons item batch ih => rw [List.foldl_cons, List.foldl_cons, ih, Keyed.toList_insert]

/-- The entries that a removal leaves are those it is not about. -/
theorem toList_without {ids : List String} {f : Filter} {p : String × Item → Bool}
    (hp : ∀ e ∈ d.items.toList, p e = !isTarget ids f e.2) :
    d.items.toList.filter p = (d.without ids f).items.toList := by
  rw [Shelf.without, Std.ExtTreeMap.toList_filter]
  exact List.filter_congr hp

theorem Filed.without (hd : d.Filed) (ids : List String) (f : Filter) :
    (d.without ids f).Filed := by
  intro id item h
  rw [← Std.ExtTreeMap.mem_toList_iff_getElem?_eq_some, ← toList_without fun _ _ => rfl,
    List.mem_filter, Std.ExtTreeMap.mem_toList_iff_getElem?_eq_some] at h
  exact hd id item h.1

/-! ## Items of some ids -/

/-- The items of some ids, put into the order of the ids, are what the ids
look up. -/
theorem Filed.inOrderOf_filter (hd : d.Filed) (ids : List String) :
    Batch.inOrderOf ids
        ((Keyed.values d.items.toList).filter fun item => ids.contains item.id) =
      ids.eraseDups.filterMap fun id => d.items[id]? := by
  have hkey : ∀ e ∈ d.items.toList, e.2.id = e.1 := fun e he => hd.id_of_mem he
  have hnone : ((Keyed.values d.items.toList).filter fun item => ids.contains item.id).filter
      (fun item => !ids.contains item.id) = [] := by
    rw [List.filter_filter, List.filter_eq_nil_iff]
    simp
  -- no row of another id was selected, so only the ids asked for are walked through
  rw [Batch.inOrderOf, hnone, List.nil_append, List.filterMap_eq_flatMap_toList]
  refine List.flatMap_congr fun id hid => ?_
  have hids : ids.contains id = true := by simpa using List.mem_eraseDups.1 hid
  rw [List.filter_filter, ← Keyed.get?_toList,
    ← (Keyed.ascending_toList d.items).filter_values hkey id]
  refine List.filter_congr fun item _ => ?_
  by_cases h : item.id = id
  · simp [h, List.mem_eraseDups.1 hid]
  · simp [h]

/-- The ids of the items that are looked up and pass are those of the targets of
a removal. -/
theorem Filed.contains_accepted (hd : d.Filed) {ids : List String} (hids : ids.isEmpty = false)
    (f : Filter) {e : String × Item} (he : e ∈ d.items.toList) :
    (((ids.eraseDups.filterMap fun id => d.items[id]?).filter f.accepts).map
      (·.id)).contains e.1 = isTarget ids f e.2 := by
  have he' := Std.ExtTreeMap.mem_toList_iff_getElem?_eq_some.1 he
  have hid := hd.id_of_mem he
  rw [Bool.eq_iff_iff, isTarget, hids, Bool.false_or, hid]
  simp only [List.contains_iff_mem, List.mem_map, List.mem_filter, List.mem_filterMap,
    List.mem_eraseDups, Bool.and_eq_true]
  -- an entry is looked up by its own id, as every item stands under its id
  constructor
  · rintro ⟨item, ⟨⟨id, hmem, hlook⟩, hacc⟩, heq⟩
    obtain rfl : id = e.1 := (hd id item hlook).symm.trans heq
    obtain rfl : e.2 = item := Option.some.inj (he'.symm.trans hlook)
    exact ⟨hmem, hacc⟩
  · rintro ⟨hmem, hacc⟩
    exact ⟨e.2, ⟨⟨e.1, hmem, he'⟩, hacc⟩, hid⟩

/-! ## Items that pass -/

/-- The matching items of a collection are in ascending order of their ids. -/
theorem Filed.matching_ascending (hd : d.Filed) (filter : Option Filter) :
    ((d.matching filter).map (·.id)).Pairwise (· < ·) := by
  rw [matching, List.pairwise_map]
  refine List.Pairwise.filter _ (List.pairwise_map.2 ?_)
  refine (Keyed.ascending_toList d.items).imp_of_mem fun {a b} ha hb hab => ?_
  rw [hd.id_of_mem ha, hd.id_of_mem hb]
  exact hab

theorem Filed.mem_matching (hd : d.Filed) (filter : Option Filter) (item : Item) :
    item ∈ d.matching filter ↔
      d.items[item.id]? = some item ∧ filter.all (fun f => f.accepts item) = true := by
  rw [matching, List.mem_filter, List.mem_map]
  refine and_congr_left fun _ => ⟨?_, fun h => ?_⟩
  · rintro ⟨⟨id, item⟩, he, rfl⟩
    have hid : item.id = id := hd.id_of_mem he
    rw [hid, Std.ExtTreeMap.mem_toList_iff_getElem?_eq_some.1 he]
  · exact ⟨(item.id, item), Std.ExtTreeMap.mem_toList_iff_getElem?_eq_some.2 h, rfl⟩

end Shelf

end VectorBridge
