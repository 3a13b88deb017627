import VectorBridge.Proofs.Family.ById
import VectorBridge.Proofs.Family.FirstItem
import VectorBridge.Proofs.Family.UuidKeyed
import VectorBridge.Proofs.Weaviate.Pushdown
import VectorBridge.Proofs.Weaviate.Storage
/-!
# Objects told by their UUIDs

Objects are read, replaced and removed one by one, each by its UUID. What is done
to the objects of some ids is done to all that stand under the UUIDs of these
ids.
-/

namespace VectorBridge

namespace Weaviate

variable {m : Memory} {name : String} {s : Stored} {ids : List String}

/-- What is found under a UUID is the object of it. -/
theorem find?_eq_some_iff (hs : s.Faithful name) {u : Uuid} {o : Object} :
    s.objects.find? (fun o => o.id = u) = some o ↔ o ∈ s.objects ∧ o.id = u := by
  have hsound : ∀ {o}, s.objects.find? (fun o => o.id = u) = some o → o ∈ s.objects ∧ o.id = u := by
    intro o hfind
    have hkey := List.find?_some hfind
    exact ⟨List.mem_of_find?_eq_some hfind, of_decide_eq_true hkey⟩
  refine ⟨hsound, fun ⟨ho, hkey⟩ => ?_⟩
  have hsome : (s.objects.find? fun o => o.id = u).isSome :=
    List.find?_isSome.2 ⟨o, ho, decide_eq_true hkey⟩
  obtain ⟨o', hfind⟩ := Option.isSome_iff_exists.1 hsome
  obtain ⟨ho', hkey'⟩ := hsound hfind
  rw [hfind, List.inj_on_of_nodup_map hs.distinct ho' ho (hkey'.trans hkey.symm)]

/-- Reading object by object finds those of the UUIDs, in the order of the ids. -/
theorem getAll_apply (hs : Keyed.get? name m.classes = some s) (ids : List String) :
    getAll name ids m = (.ok ((uuidsOf ids).flatMap fun u =>
      (s.objects.find? fun o => o.id = u).toList.map Object.toItem), m) := by
  induction ids with
  | nil => rfl
  | cons id rest ih =>
    have hfirst : Server.get name (uuidKey id).1 m = _ :=
      reading_apply hs fun s => s.objects.find? fun o => o.id = (uuidKey id).1
    rw [getAll, Step.bind_of_ok hfirst, Step.bind_of_ok ih]
    rfl

/-- The objects found under the UUIDs of some ids. -/
theorem mem_found (hs : s.Faithful name) {item : Item} :
    item ∈ (uuidsOf ids).flatMap (fun u =>
      (s.objects.find? fun o => o.id = u).toList.map Object.toItem) ↔
      item ∈ underUuids ids (storage.items s) := by
  rw [mem_underUuids, List.mem_flatMap, Storage.items, List.mem_map]
  constructor
  · rintro ⟨u, hu, hitem⟩
    obtain ⟨o, hfound, rfl⟩ := List.mem_map.1 hitem
    obtain ⟨hmem, rfl⟩ := (find?_eq_some_iff hs).1 (Option.mem_toList.1 hfound)
    refine ⟨⟨o, hmem, rfl⟩, ?_⟩
    rw [hs.keyed o hmem]
    exact hu
  · rintro ⟨⟨o, hmem, rfl⟩, hu⟩
    rw [show (uuidKey (storage.itemOf s o).id).1 = o.id from hs.keyed o hmem] at hu
    have hfind := (find?_eq_some_iff hs).2 ⟨hmem, rfl⟩
    exact ⟨o.id, hu, List.mem_map_of_mem (Option.mem_toList.2 hfind)⟩

/-- Objects of a class that is there can be removed. -/
theorem exists_deleteAll (hs : Keyed.get? name m.classes = some s) (ids : List String) :
    ∃ m', deleteAll name ids m = (.ok (), m') := by
  induction ids generalizing m s with
  | nil => exact ⟨m, rfl⟩
  | cons id rest ih =>
    have hfirst : Server.delete name (uuidKey id).1 m = _ := changing_apply hs _
    rw [deleteAll, Step.bind_of_ok hfirst]
    exact ih (Keyed.get?_insert_self _ _ _)

/-- Writing objects places them one after the other in a class of the same name. -/
theorem foldl_write (objects : List Object) (s : Stored) :
    (objects.foldl Stored.write s).definition.name = s.definition.name ∧
      (objects.foldl Stored.write s).objects =
        objects.foldl (fun l o => place o l) s.objects := by
  induction objects generalizing s with
  | nil => exact ⟨rfl, rfl⟩
  | cons o rest ih => exact ih (s.write o)

/-- The objects after the objects of some items have been written. -/
theorem mem_objects_foldl (hs : s.Faithful name) {batch : List Item}
    (hnew : (batch.map fun item => (uuidKey item.id).1).Nodup) {o : Object} :
    o ∈ ((batch.map Object.ofItem).foldl Stored.write s).objects ↔
      (∃ item ∈ batch, Object.ofItem item = o) ∨
        o ∈ s.objects ∧ (uuidKey o.toItem.id).1 ∉ uuidsOf (batch.map (·.id)) := by
  have hput : ∀ {o : Object} {objects : List Object}, True → (objects.map (·.id)).Nodup →
      ((place o objects).map (·.id)).Nodup ∧
        ∀ o', o' ∈ place o objects ↔ o' = o ∨ o' ∈ objects ∧ o'.id ≠ o.id := by
    intro o objects _ hobjects
    rw [place_eq]
    exact ⟨placeBy.nodup (fun o _ => decide_eq_true_iff) hobjects,
      fun o' => placeBy.mem_iff (fun o _ => decide_eq_true_iff) hobjects⟩
  have hkeys : (batch.map Object.ofItem).map (·.id) = uuidsOf (batch.map (·.id)) := by
    rw [uuidsOf, List.map_map, List.map_map]
    rfl
  have hdistinct : ((batch.map Object.ofItem).map (·.id)).Nodup := by
    rw [List.map_map]
    exact hnew
  rw [(foldl_write _ s).2, mem_foldl_put (J := fun objects => (objects.map (·.id)).Nodup) hput
    (fun _ _ => trivial) hs.distinct hdistinct, hkeys, List.mem_map]
  exact or_congr_right (and_congr_right fun ho => by rw [hs.keyed o ho])

/-- **The family tells objects by UUID.** -/
theorem uuidKeyed : storage.UuidKeyed (family (τ := Memory)) Memory.Faithful fun item =>
    (Object.ofItem item).toItem where
  id_stored := toItem_ofItem_id
  selects_iff := by
    intro m name s hm hs o ho ids
    rw [show (uuidKey (storage.itemOf s o).id).1 = o.id from (hm name s hs).keyed o ho, uuidsOf,
      List.mem_map]
    exact List.any_eq_true.trans (exists_congr fun id => and_congr_right fun _ =>
      decide_eq_true_iff)
  fetch := by
    intro m name c s ho ids
    obtain ⟨rfl, -⟩ := opened_eq ho
    have hs : Keyed.get? (className name) m.classes = some s := ho.held
    refine ⟨_, getAll_apply hs ids, ?_, fun item => mem_found (ho.inv _ s hs)⟩
    rintro rfl
    rfl
  erase := by
    intro m name c s ho ids
    obtain ⟨rfl, -⟩ := opened_eq ho
    exact exists_deleteAll ho.held ids
  write := by
    intro m name c s ho batch
    obtain ⟨rfl, -⟩ := opened_eq ho
    have hs : Keyed.get? (className name) m.classes = some s := ho.held
    refine Step.bind_cases (P := storage.Places _ _ s batch m) (fun e m₁ hkeys => ?_)
      fun keys m₁ hkeys => ?_
    all_goals obtain ⟨hmap, rfl⟩ := Prod.mk.inj hkeys
    · exact .inl ⟨by simp, rfl⟩
    have hput : Server.put (className name) (batch.map Object.ofItem) m = _ := changing_apply hs _
    rw [Call.toAction_of_ok hput]
    refine .inr ⟨rfl, _, changed_insert _ _ _, ?_⟩
    have hrows := fun o => mem_objects_foldl (o := o) (ho.inv _ s hs)
      (IdKind.nodup_of_mapBatch hmap)
    exact storage.mem_items_of_rows s Object.ofItem rfl hrows

end Weaviate

/-! ## Objects read back

The properties of an object hold the document and the metadata of its item. An item
whose metadata has a key that names the document's property is refused, so of an item
that is stored nothing is lost.
-/

namespace Weaviate

/-- An object is read as its item, if the item may be stored. -/
theorem agrees_toItem_ofItem {item : Item} (hplain : Metadata.Plain item.metadata)
    (hcheck : checkProperties item = .ok ()) : item.Agrees (Object.ofItem item).toItem := by
  have hne : documentProperty ≠ givenIdKey := by decide
  have hfree := get?_document_of_checkProperties hcheck
  obtain ⟨hdocument, hmetadata⟩ :=
    Item.unfold_folded (uuidKey item.id).2 (.uuid (uuidKey item.id).1) hne hfree hplain
  exact ⟨toItem_ofItem_id hplain, hdocument, hmetadata, rfl⟩

/-- The objects of a batch are found under their UUIDs. -/
theorem find?_objects_foldl {batch : List Item}
    (hnew : (batch.map fun item => (uuidKey item.id).1).Nodup) (s : Stored) {item : Item}
    (hitem : item ∈ batch) :
    ((batch.map Object.ofItem).foldl Stored.write s).objects.find?
      (fun o => o.id = (uuidKey item.id).1) = some (Object.ofItem item) := by
  let look (u : Uuid) (objects : List Object) := objects.find? fun o => o.id = u
  have hput : ∀ {o : Object} {objects : List Object}, True → True →
      True ∧ look o.id (place o objects) = some o ∧
        ∀ u, o.id ≠ u → look u (place o objects) = look u objects := by
    intro o objects _ _
    have hfind : ∀ u, look u (place o objects) = if o.id = u then some o else look u objects := by
      rw [place_eq]
      exact placeBy.find?_eq fun _ _ => decide_eq_true_iff
    exact ⟨trivial, (hfind o.id).trans (if_pos rfl), fun u hne => (hfind u).trans (if_neg hne)⟩
  have hdistinct : ((batch.map Object.ofItem).map (·.id)).Nodup := by
    rw [List.map_map]
    exact hnew
  rw [(foldl_write _ s).2]
  exact lookup_foldl_put look hput (fun _ _ => trivial) trivial hdistinct
    (List.mem_map_of_mem hitem)

/-- **The family reads back what it writes**, on any server. -/
theorem roundTrips : storage.RoundTrips (family (τ := Memory)) (fun _ => True) (fun _ _ => True)
    (fun _ _ => True) id where
  write := by
    intro m m' name c s batch ho hplain _ hwrite
    obtain rfl := handle_eq ho
    have hs : Keyed.get? (className name) m.classes = some s := ho.held
    obtain ⟨_, m₁, hkeys, hput⟩ := Step.bind_eq_ok_iff.1 hwrite
    obtain ⟨hmap, rfl⟩ := Prod.mk.inj hkeys
    have hdone : Server.put (className name) (batch.map Object.ofItem) m = _ :=
      changing_apply hs _
    rw [Call.toAction_of_ok hdone] at hput
    cases hput
    have hheld' := Keyed.get?_insert_self (className name)
      ((batch.map Object.ofItem).foldl Stored.write s) m.classes
    refine ⟨_, hheld', fun _ item hitem _ _ _ hcheck _ => ?_⟩
    have hattach : openCollection name _ = _ := Step.bind_of_ok (reading_apply hheld' _) _
    refine ⟨_, (Object.ofItem item).toItem, hattach, ?_,
      agrees_toItem_ofItem (hplain item hitem) hcheck⟩
    have hread := getAll_apply hheld' [item.id]
    rw [uuidsOf, List.map_singleton, List.flatMap_singleton,
      find?_objects_foldl (IdKind.nodup_of_mapBatch hmap) s hitem] at hread
    exact hread

end Weaviate

/-! ## The first object of a class

A listing asks for the objects of a class by the name in its definition, so what
has to be known of a server is that a class is defined under its name.
-/

namespace Weaviate

/-- Every class is defined under its name. -/
def Memory.Named (m : Memory) : Prop :=
  ∀ name s, Keyed.get? name m.classes = some s → s.definition.name = name

/-- A change of a class that keeps its name keeps all names. -/
theorem keeps_named {f : Stored → Stored} (name : String)
    (hf : ∀ s, (f s).definition.name = s.definition.name) :
    Step.Keeps Memory.Named (Memory.changing name f) := fun m hm =>
  forall_changing (m := m) (P := fun name s => s.definition.name = name) hm fun s hname =>
    (hf s).trans hname

theorem guards_named : (family (τ := Memory)).Guards Memory.Named fun _ => True where
  create c name width metric m hm := by
    show Memory.Named (Memory.create (className name) metric m).2
    unfold Memory.create
    split
    · exact hm
    · exact Keyed.forall_insert hm rfl
  drop name m hm := Keyed.forall_erase hm (className name)
  eraseIds c ids := by
    show Step.Keeps Memory.Named (deleteAll (τ := Memory) (className c.collection) ids)
    induction ids with
    | nil => exact (Step.leaves_pure _).keeps
    | cons id rest ih => exact Step.Keeps.bind (keeps_named _ fun _ => rfl) fun _ => ih
  eraseWhere c w := keeps_named _ fun _ => rfl
  write {name m c items} hm _ _ _ := by
    refine Step.keeps_bind_at hm fun _ m₁ hrun => ?_
    obtain ⟨-, rfl⟩ := Prod.mk.inj hrun
    show Memory.Named (Call.toAction _ m).2
    rw [Session.toAction_snd]
    exact keeps_named _ (fun s => (foldl_write _ s).1) m hm
  plain_fetch _ _ _ _ _ := trivial

/-- **A class shows its first object**, under the id of its item exactly when the id
survives. -/
theorem showsFirst :
    storage.ShowsFirst (family (τ := Memory)) Memory.Named fun _ id => (uuidKey id).2 where
  attach_of_held := lawful.attach_of_held
  write := by
    intro m m' name c s item ho hempty hwrite
    obtain rfl := handle_eq ho
    have hs : Keyed.get? (className name) m.classes = some s := ho.held
    obtain ⟨_, m₁, hkeys, hput⟩ := Step.bind_eq_ok_iff.1 hwrite
    obtain ⟨-, rfl⟩ := Prod.mk.inj hkeys
    have hnone : s.objects = [] := List.map_eq_nil_iff.1 hempty
    have hdone : Server.put (className name) ([item].map Object.ofItem) m = _ :=
      changing_apply hs _
    rw [Call.toAction_of_ok hdone] at hput
    cases hput
    refine ⟨_, (Object.ofItem item).toItem, Keyed.get?_insert_self _ _ _, ?_,
      toItem_ofItem_id_iff item⟩
    show (place (Object.ofItem item) s.objects).map Object.toItem = _
    rw [hnone]
    rfl
  drains_readPage := by
    intro m name c s shown ho hitems sizes items m' hdrain
    have hname : s.definition.name = className name := ho.inv _ s ho.held
    rw [drains_eq_passing ho hname hdrain, Storage.passing_none, hitems]
  readPage := by
    intro m name c s shown ho hitems
    have hname : s.definition.name = className name := ho.inv _ s ho.held
    have hpassing : storage.passing s none = [shown] := by rw [Storage.passing_none, hitems]
    have hshort : (storage.passing s none).length < 2 := by
      rw [hpassing]
      exact Nat.one_lt_two
    rw [readPage_of_short ho hname hshort, hpassing]

end Weaviate

end VectorBridge
