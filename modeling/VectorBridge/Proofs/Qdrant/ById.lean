import VectorBridge.Proofs.Family.ById
import VectorBridge.Proofs.Family.FirstItem
import VectorBridge.Proofs.Family.UuidKeyed
import VectorBridge.Proofs.Placing
import VectorBridge.Proofs.Qdrant.Storage
/-!
# Points told by their UUIDs

Points are read, replaced and removed by UUID, so whatever is done to the points
of some ids is done to all that stand under the UUIDs of these ids.
-/

namespace VectorBridge

namespace Qdrant

variable {m : Memory} {name : String} {s : Stored}

/-- The points after the points of some items have been put. -/
theorem mem_points_foldl (hs : s.Faithful) {batch : List Item}
    (hnew : (batch.map fun item => (uuidKey item.id).1).Nodup) {e : Uuid × Point} :
    e ∈ (batch.map Point.ofItem).foldl (fun m p => Keyed.insert p.id p m) s.points ↔
      (∃ item ∈ batch, ((uuidKey item.id).1, Point.ofItem item) = e) ∨
        e ∈ s.points ∧ (uuidKey e.2.toItem.id).1 ∉ uuidsOf (batch.map (·.id)) := by
  let put (e : Uuid × Point) (points : Keyed Uuid Point) := Keyed.insert e.1 e.2 points
  let entry (item : Item) : Uuid × Point := ((uuidKey item.id).1, Point.ofItem item)
  let key : Uuid × Point → Uuid := Prod.fst
  have hput : ∀ {e : Uuid × Point} {points : Keyed Uuid Point}, True → points.Ascending →
      (put e points).Ascending ∧
        ∀ e', e' ∈ put e points ↔ e' = e ∨ e' ∈ points ∧ key e' ≠ key e := by
    intro e points _ hpoints
    exact ⟨hpoints.insert _ _, fun e' => hpoints.mem_insert_iff⟩
  have hfold : (batch.map Point.ofItem).foldl (fun m p => Keyed.insert p.id p m) s.points =
      (batch.map entry).foldl (fun points e => put e points) s.points := by
    rw [List.foldl_map, List.foldl_map]
    rfl
  have hkeys : (batch.map entry).map key = uuidsOf (batch.map (·.id)) := by
    rw [uuidsOf, List.map_map, List.map_map]
    rfl
  have hdistinct : ((batch.map entry).map key).Nodup := by
    rw [List.map_map]
    exact hnew
  rw [hfold, mem_foldl_put hput (fun _ _ => trivial) hs.ascending hdistinct, hkeys, List.mem_map]
  exact or_congr_right (and_congr_right fun he => by rw [hs.mapped e he])

/-- The points found under the UUIDs of some ids. -/
theorem mem_found (hs : s.Faithful) {ids : List String} {item : Item} :
    item ∈ ((uuidsOf ids).filterMap fun u => Keyed.get? u s.points).map Point.toItem ↔
      item ∈ underUuids ids (storage.items s) := by
  rw [mem_underUuids, List.mem_map, Storage.items, List.mem_map]
  constructor
  · rintro ⟨p, hp, rfl⟩
    obtain ⟨u, hu, hget⟩ := List.mem_filterMap.1 hp
    have hmem := Keyed.mem_of_get? hget
    refine ⟨⟨(u, p), hmem, rfl⟩, ?_⟩
    rw [hs.mapped _ hmem]
    exact hu
  · rintro ⟨⟨⟨u, p⟩, hmem, rfl⟩, hu⟩
    rw [show (uuidKey (storage.itemOf s (u, p)).id).1 = u from hs.mapped _ hmem] at hu
    exact ⟨p, List.mem_filterMap.2 ⟨u, hu, hs.ascending.get?_of_mem hmem⟩, rfl⟩

/-- A write of points is refused or puts them all. -/
theorem upsert_cases (hs : Keyed.get? name m.collections = some s) (points : List Point) :
    (∃ e, Memory.upsert name points m = (.error e, m)) ∨
      Memory.upsert name points m = (.ok (), ⟨Keyed.insert name { s with
        points := points.foldl (fun m p => Keyed.insert p.id p m) s.points } m.collections⟩) := by
  cases hfit : s.misfit? points with
  | some v => exact .inl ⟨_, changing_of_error hs (by rw [hfit])⟩
  | none => exact .inr (changing_of_ok hs (by rw [hfit]))

theorem erase_apply (hs : Keyed.get? name m.collections = some s) (us : List Uuid) :
    Memory.erase name us m = (.ok (), ⟨Keyed.insert name { s with
      points := us.foldl (fun m u => Keyed.erase u m) s.points } m.collections⟩) :=
  changing_of_ok hs rfl

/-- What is fetched for some ids. -/
theorem fetch_apply (hs : Keyed.get? name m.collections = some s) (ids : List String) :
    family.fetch name ids m =
      (.ok (((uuidsOf ids).filterMap fun u => Keyed.get? u s.points).map Point.toItem), m) := by
  have hread := Call.toAction_eq_ok_iff.1
    (reading_apply hs fun s => (uuidsOf ids).filterMap fun u => Keyed.get? u s.points)
  exact Step.bind_of_ok hread fun points => (pure (points.map Point.toItem) : Call Memory _)

/-- **The family tells points by UUID.** -/
theorem uuidKeyed : storage.UuidKeyed family Memory.Faithful fun item =>
    (Point.ofItem item).toItem where
  id_stored := toItem_ofItem_id
  selects_iff := by
    intro m name s hm hs e he ids
    rw [show (uuidKey (storage.itemOf s e).id).1 = e.1 from (hm name s hs).mapped e he]
    exact List.contains_iff_mem
  fetch := by
    intro m name h s ho ids
    cases ho.attach
    have hs : Keyed.get? name m.collections = some s := ho.held
    refine ⟨_, fetch_apply hs ids, ?_, fun item => mem_found (ho.inv name s hs)⟩
    rintro rfl
    rfl
  erase := by
    intro m name h s ho ids
    cases ho.attach
    exact ⟨_, erase_apply ho.held _⟩
  write := by
    intro m name h s ho batch
    cases ho.attach
    refine Step.bind_cases (P := storage.Places _ _ s batch m) (fun e m₁ hkeys => ?_)
      fun keys m₁ hkeys => ?_
    all_goals obtain ⟨hmap, rfl⟩ := Prod.mk.inj hkeys
    · exact .inl ⟨by simp, rfl⟩
    have hs : Keyed.get? name m.collections = some s := ho.held
    rcases upsert_cases hs (batch.map Point.ofItem) with ⟨e, hput⟩ | hput
    · rw [Call.toAction_of_error hput]
      exact .inl ⟨by simp, rfl⟩
    · rw [Call.toAction_of_ok hput]
      refine .inr ⟨rfl, _, changed_insert _ _ _, ?_⟩
      have hrows := fun e => mem_points_foldl (e := e) (ho.inv _ s hs)
        (IdKind.nodup_of_mapBatch hmap)
      exact storage.mem_items_of_rows s (fun item => ((uuidKey item.id).1, Point.ofItem item)) rfl
        hrows

end Qdrant

/-! ## Points read back

The payload of a point holds the document and the metadata of its item under one
roof. Nothing refuses metadata under the key of the document, which then takes its
place or is taken for it; of all other items nothing is lost.
-/

namespace Qdrant

/-- A point is read as its item, if the metadata leaves the key of the document
alone. -/
theorem agrees_toItem_ofItem {item : Item} (hplain : Metadata.Plain item.metadata)
    (hfree : Keyed.get? documentKey item.metadata = none) :
    item.Agrees (Point.ofItem item).toItem := by
  have hne : documentKey ≠ givenIdKey := by decide
  obtain ⟨hdocument, hmetadata⟩ :=
    Item.unfold_folded (uuidKey item.id).2 (.uuid (uuidKey item.id).1) hne hfree hplain
  exact ⟨toItem_ofItem_id hplain, hdocument, hmetadata, rfl⟩

/-- The points of a batch are found under their UUIDs. -/
theorem get?_points_foldl {batch : List Item}
    (hnew : (batch.map fun item => (uuidKey item.id).1).Nodup) (points : Keyed Uuid Point)
    {item : Item} (hitem : item ∈ batch) :
    Keyed.get? (uuidKey item.id).1
      ((batch.map Point.ofItem).foldl (fun m p => Keyed.insert p.id p m) points) =
      some (Point.ofItem item) := by
  have hput : ∀ {p : Point} {points : Keyed Uuid Point}, True → True →
      True ∧ Keyed.get? p.id (Keyed.insert p.id p points) = some p ∧
        ∀ u, p.id ≠ u → Keyed.get? u (Keyed.insert p.id p points) = Keyed.get? u points :=
    fun _ _ => ⟨trivial, Keyed.get?_insert_self _ _ _, fun _ hne =>
      Keyed.get?_insert_of_ne hne _ _⟩
  have hdistinct : ((batch.map Point.ofItem).map (·.id)).Nodup := by
    rw [List.map_map]
    exact hnew
  exact lookup_foldl_put Keyed.get? hput (fun _ _ => trivial) trivial hdistinct
    (List.mem_map_of_mem hitem)

/-- **The family reads back what it writes**, on any server. -/
theorem roundTrips : storage.RoundTrips family (fun _ => True) (fun _ _ => True)
    (fun _ item => Keyed.get? documentKey item.metadata = none) id where
  write := by
    intro m m' name h s batch ho hplain _ hwrite
    cases ho.attach
    have hs : Keyed.get? name m.collections = some s := ho.held
    obtain ⟨_, m₁, hkeys, hput⟩ := Step.bind_eq_ok_iff.1 hwrite
    obtain ⟨hmap, rfl⟩ := Prod.mk.inj hkeys
    have hdone := Call.toAction_eq_ok_iff.1 hput
    rcases upsert_cases hs (batch.map Point.ofItem) with ⟨e, hfailed⟩ | hwritten
    · rw [hfailed] at hdone
      cases hdone
    rw [hwritten] at hdone
    cases hdone
    refine ⟨_, Keyed.get?_insert_self _ _ _, fun _ item hitem _ _ _ _ hfree => ?_⟩
    refine ⟨name, (Point.ofItem item).toItem, rfl, ?_,
      agrees_toItem_ofItem (hplain item hitem) hfree⟩
    have hfetch := fetch_apply (Keyed.get?_insert_self name { s with
      points := (batch.map Point.ofItem).foldl (fun m p => Keyed.insert p.id p m) s.points }
        m.collections) [item.id]
    rw [uuidsOf, List.map_singleton, List.filterMap_cons,
      get?_points_foldl (IdKind.nodup_of_mapBatch hmap) s.points hitem] at hfetch
    exact hfetch

end Qdrant

/-! ## The first point of a collection

A point is read from whatever server it is on, so nothing has to be known of the
server to tell what a collection of one point lists.
-/

namespace Qdrant

/-- Of a server nothing is asked. -/
theorem guards_any : family.Guards (fun _ => True) fun _ => True where
  create _ _ _ _ _ _ := trivial
  drop _ _ _ := trivial
  eraseIds _ _ _ _ := trivial
  eraseWhere _ _ _ _ := trivial
  write _ _ _ _ := trivial
  plain_fetch _ _ _ _ _ := trivial

/-- A collection of one item has one point. -/
theorem passing_of_shown {s : Stored} {shown : Item} (h : storage.items s = [shown]) :
    ∃ p, s.passing none = [p] ∧ p.toItem = shown := by
  have hpassing : (s.passing none).map Point.toItem = [shown] := by
    rw [passing_eq, Storage.passing_none, h]
  obtain ⟨p, hp, hshown⟩ := List.map_eq_singleton_iff.1 hpassing
  exact ⟨p, hp, hshown⟩

/-- **A collection shows its first point**, under the id of its item exactly when
the id survives. -/
theorem showsFirst :
    storage.ShowsFirst family (fun _ => True) fun _ id => (uuidKey id).2 where
  attach_of_held _ := ⟨_, rfl⟩
  write := by
    intro m m' name h s item ho hempty hwrite
    cases ho.attach
    have hs : Keyed.get? name m.collections = some s := ho.held
    obtain ⟨_, m₁, hkeys, hput⟩ := Step.bind_eq_ok_iff.1 hwrite
    obtain ⟨-, rfl⟩ := Prod.mk.inj hkeys
    have hnone : s.points = [] := List.map_eq_nil_iff.1 hempty
    rcases upsert_cases hs ([item].map Point.ofItem) with ⟨e, hfailed⟩ | hdone
    · rw [Call.toAction_of_error hfailed] at hput
      cases hput
    · rw [Call.toAction_of_ok hdone, hnone] at hput
      cases hput
      exact ⟨_, (Point.ofItem item).toItem, Keyed.get?_insert_self _ _ _, rfl,
        toItem_ofItem_id_iff item⟩
  drains_readPage := by
    intro m name h s shown ho hitems sizes items m' hdrain
    cases ho.attach
    have hs : Keyed.get? name m.collections = some s := ho.held
    obtain ⟨p, hp, rfl⟩ := passing_of_shown hitems
    have horder : (s.passing none).Pairwise fun p q => p.id < q.id := by
      rw [hp]
      exact List.pairwise_singleton _ _
    have hsplit : s.passing none = [] ++ s.passing none := rfl
    rw [drains_eq_rest hs horder hdrain hsplit (marks_none _), hp]
    rfl
  readPage := by
    intro m name h s shown ho hitems
    cases ho.attach
    have hs : Keyed.get? name m.collections = some s := ho.held
    obtain ⟨p, hp, rfl⟩ := passing_of_shown hitems
    have hread := readPage_of_marks hs (marks_none (s.passing none)) 2
    rw [hp] at hread
    exact hread

end Qdrant

end VectorBridge
