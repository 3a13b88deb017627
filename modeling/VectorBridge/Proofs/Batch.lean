import Mathlib.Data.List.Basic
import VectorBridge.Proofs.Catalog
import VectorBridge.Proofs.Step
/-!
# Batches

A batch that passes its checks has distinct ids and vectors of one width, and
the vectors that are computed on the way change neither ids nor metadata. An
update finds the stored item of its id and takes over what it supplies.
-/

namespace VectorBridge

/-- An item without its vector. -/
def Item.bare (item : Item) : Item := { item with embedding := none }

/-- Items that differ in their vectors alone are alike in all that leaves the
vectors out. -/
theorem Item.map_eq_of_bare {α : Type} {g : Item → α} {items items' : List Item}
    (hg : ∀ item, g item.bare = g item) (h : items'.map bare = items.map bare) :
    items'.map g = items.map g := by
  have hmap := congrArg (List.map g) h
  simpa only [List.map_map, Function.comp_def, hg] using hmap

/-- And each has its like, of the same id and metadata. -/
theorem Item.exists_of_bare {items items' : List Item} (h : items'.map bare = items.map bare)
    {item : Item} (hitem : item ∈ items') :
    ∃ other ∈ items, other.id = item.id ∧ other.metadata = item.metadata := by
  obtain ⟨other, hother, heq⟩ := List.mem_map.1 (h ▸ List.mem_map_of_mem hitem)
  have hid : other.bare.id = item.bare.id := congrArg Item.id heq
  have hmeta : other.bare.metadata = item.bare.metadata := congrArg Item.metadata heq
  exact ⟨other, hother, hid, hmeta⟩

/-- What holds of the metadata of all holds of the metadata of their likes. -/
theorem Item.forall_of_bare {P : Metadata → Prop} {items items' : List Item}
    (h : items'.map bare = items.map bare) (hitems : ∀ item ∈ items, P item.metadata) :
    ∀ item ∈ items', P item.metadata := by
  intro item hitem
  obtain ⟨other, hother, -, hmeta⟩ := exists_of_bare h hitem
  exact hmeta ▸ hitems other hother

namespace Batch

/-! ## Checks -/

/-- A batch passes when its ids are distinct, no texts without a character, and not those
seen before. -/
theorem checkIdsAfter_eq_ok_iff {items : List Item} {seen : List String} :
    checkIdsAfter seen items = .ok () ↔ (items.map (·.id)).Nodup ∧
      ∀ item ∈ items, item.id.isEmpty = false ∧ item.id ∉ seen := by
  induction items generalizing seen with
  | nil => simp [checkIdsAfter]
  | cons item items ih =>
    rw [checkIdsAfter, List.map_cons, List.nodup_cons, List.forall_mem_cons]
    split
    · rename_i hempty
      exact ⟨nofun, fun h => by rw [h.2.1.1] at hempty; cases hempty⟩
    rename_i hnamed
    split
    · rename_i hseen
      exact ⟨nofun, fun h => absurd (List.contains_iff_mem.1 hseen) h.2.1.2⟩
    rename_i hseen
    rw [List.contains_iff_mem] at hseen
    rw [ih]
    constructor
    · rintro ⟨hnodup, hrest⟩
      refine ⟨⟨fun hmem => ?_, hnodup⟩, ⟨Bool.eq_false_iff.2 hnamed, hseen⟩, fun other hother => ?_⟩
      · obtain ⟨other, hother, hid⟩ := List.mem_map.1 hmem
        exact (hrest other hother).2 (hid ▸ List.mem_cons_self)
      · exact ⟨(hrest other hother).1, fun hmem =>
          (hrest other hother).2 (List.mem_cons_of_mem _ hmem)⟩
    · rintro ⟨⟨hnot, hnodup⟩, -, hrest⟩
      refine ⟨hnodup, fun other hother => ⟨(hrest other hother).1, fun hmem => ?_⟩⟩
      rcases List.mem_cons.1 hmem with heq | hmem
      · exact hnot (heq ▸ List.mem_map_of_mem hother)
      · exact (hrest other hother).2 hmem

theorem nodup_of_checkIds {items : List Item} (h : checkIds items = .ok ()) :
    (items.map (·.id)).Nodup := (checkIdsAfter_eq_ok_iff.1 h).1

/-- A batch that fits a width has no vector of another. -/
theorem commonWidth_some_eq_ok {w : Nat} {batch : List Item} {r : Option Nat}
    (h : commonWidth (some w) batch = .ok r) :
    r = some w ∧ ∀ v ∈ batch.filterMap (·.embedding), v.length = w := by
  induction batch with
  | nil => exact ⟨(Except.ok.inj h).symm, by simp⟩
  | cons item batch ih =>
    cases he : item.embedding with
    | none =>
      simp only [commonWidth, he] at h
      simpa [he] using ih h
    | some v =>
      simp only [commonWidth, he] at h
      split at h
      · rename_i hw
        simpa [he, hw] using ih h
      · cases h

/-- A batch whose vectors are all of a width fits it. -/
theorem commonWidth_of_forall {w : Nat} {batch : List Item}
    (h : ∀ v ∈ batch.filterMap (·.embedding), v.length = w) :
    commonWidth (some w) batch = .ok (some w) := by
  induction batch with
  | nil => rfl
  | cons item batch ih =>
    cases he : item.embedding with
    | none =>
      simp only [List.filterMap_cons, he] at h
      simp only [commonWidth, he, ih h]
    | some v =>
      simp only [List.filterMap_cons, he, List.forall_mem_cons] at h
      simp only [commonWidth, he, h.1, if_true, ih h.2]

/-- A batch that has a vector of another width is refused for such a one. -/
theorem commonWidth_of_misfit {w : Nat} {batch : List Item} {v : Embedding}
    (hv : v ∈ batch.filterMap (·.embedding)) (hmisfit : v.length ≠ w) :
    ∃ n, n ≠ w ∧ commonWidth (some w) batch = .error (.dimensionMismatch w n) := by
  cases hwidth : commonWidth (some w) batch with
  | ok r => exact absurd ((commonWidth_some_eq_ok hwidth).2 v hv) hmisfit
  | error e =>
    clear hv
    induction batch with
    | nil => cases hwidth
    | cons item batch ih =>
      cases he : item.embedding with
      | none =>
        simp only [commonWidth, he] at hwidth
        exact ih hwidth
      | some u =>
        simp only [commonWidth, he] at hwidth
        split at hwidth
        · exact ih hwidth
        · rename_i hne
          cases hwidth
          exact ⟨u.length, Ne.symm hne, rfl⟩

/-- A batch that needs to fit nothing has a width when some item has a vector, and fits
that. -/
theorem commonWidth_none_eq_ok {batch : List Item} {r : Option Nat}
    (h : commonWidth none batch = .ok r) :
    ((∃ item ∈ batch, item.embedding.isSome = true) → ∃ w, r = some w) ∧
      ∀ w ∈ r, ∀ v ∈ batch.filterMap (·.embedding), v.length = w := by
  induction batch with
  | nil =>
    cases h
    exact ⟨fun ⟨_, hitem, _⟩ => (by cases hitem), nofun⟩
  | cons item batch ih =>
    cases he : item.embedding with
    | none =>
      simp only [commonWidth, he] at h
      simpa [he] using ih h
    | some v =>
      simp only [commonWidth, he] at h
      obtain ⟨rfl, hfit⟩ := commonWidth_some_eq_ok h
      refine ⟨fun _ => ⟨_, rfl⟩, fun w hw => ?_⟩
      obtain rfl := Option.some.inj hw
      simpa [he] using hfit

/-- A batch that passed against some width, or against none, fits what came out. -/
theorem checkDimensions_eq_ok {d : Dimension} {batch : List Item} {r : Option Nat}
    (h : checkDimensions d batch = .ok r) :
    (∀ w, d = .known w → r = some w) ∧
      ((∃ item ∈ batch, item.embedding.isSome = true) → ∃ w, r = some w) ∧
      ∀ w ∈ r, ∀ v ∈ batch.filterMap (·.embedding), v.length = w := by
  cases d with
  | known w =>
    obtain ⟨rfl, hfit⟩ := commonWidth_some_eq_ok h
    refine ⟨fun w' hw' => by rw [Dimension.known.inj hw'], fun _ => ⟨w, rfl⟩, fun w' hw' => ?_⟩
    exact Option.some.inj hw' ▸ hfit
  | unknown =>
    obtain ⟨hwidth, hfit⟩ := commonWidth_none_eq_ok h
    exact ⟨nofun, hwidth, hfit⟩

/-- A batch whose vectors all fit a width passes against it. -/
theorem exists_checkDimensions {d : Dimension} {w : Nat} {batch : List Item}
    (hd : d.check w = .ok ()) (h : ∀ v ∈ batch.filterMap (·.embedding), v.length = w) :
    ∃ r, checkDimensions d batch = .ok r := by
  cases d with
  | known w' =>
    have heq : w' = w := by
      by_contra hne
      rw [Dimension.check, if_neg hne] at hd
      cases hd
    exact ⟨_, commonWidth_of_forall (heq ▸ h)⟩
  | unknown =>
    -- the first vector sets the width of the others
    show ∃ r, commonWidth none batch = .ok r
    induction batch with
    | nil => exact ⟨_, rfl⟩
    | cons item batch ih =>
      cases he : item.embedding with
      | none =>
        simp only [commonWidth, he]
        exact ih fun v hv => h v (by simpa [he] using hv)
      | some v =>
        simp only [List.filterMap_cons, he, List.forall_mem_cons] at h
        simp only [commonWidth, he, h.1]
        exact ⟨_, commonWidth_of_forall h.2⟩

/-! ## Vectors that are filled in -/

/-- Vectors are filled in and nothing else is changed. -/
theorem map_fill {α : Type} (g : Item → α)
    (hg : ∀ item v, g { item with embedding := some v } = g item) (items : List Item)
    (vectors : List Embedding) : (fill items vectors).map g = items.map g := by
  induction items generalizing vectors with
  | nil => rfl
  | cons item items ih =>
    cases vectors with
    | nil => rfl
    | cons v vs =>
      rw [fill]
      split <;> simp [ih, hg]

theorem map_embedMissing {α : Type} (g : Item → α)
    (hg : ∀ item v, g { item with embedding := some v } = g item) {c : Context}
    {collection : String} {metadata : Option Metadata} {items items' : List Item}
    {log log' : List EmbeddingRequest}
    (h : embedMissing c collection metadata items log = (.ok items', log')) :
    items'.map g = items.map g := by
  unfold embedMissing at h
  split at h
  · cases h
    rfl
  · obtain ⟨vectors, _, -, h⟩ := Step.bind_eq_ok_iff.1 h
    cases h
    exact map_fill g hg items vectors

/-- An item with a vector waits for none, and stays as it is. -/
theorem mem_fill {items : List Item} {item : Item} (hitem : item ∈ items)
    (hvector : item.embedding.isSome = true) (vectors : List Embedding) :
    item ∈ fill items vectors := by
  induction items generalizing vectors with
  | nil => cases hitem
  | cons first rest ih =>
    cases vectors with
    | nil => exact hitem
    | cons v vs =>
      rw [fill]
      rcases List.mem_cons.1 hitem with rfl | hitem
      · have hready : ¬ pending item = true := by
          rw [pending, Option.isNone_eq_false_iff.2 hvector]
          exact Bool.false_ne_true
        rw [if_neg hready]
        exact List.mem_cons_self
      · split
        · exact List.mem_cons_of_mem _ (ih hitem vs)
        · exact List.mem_cons_of_mem _ (ih hitem (v :: vs))

theorem mem_embedMissing {c : Context} {collection : String} {metadata : Option Metadata}
    {items items' : List Item} {log log' : List EmbeddingRequest}
    (h : embedMissing c collection metadata items log = (.ok items', log')) {item : Item}
    (hitem : item ∈ items) (hvector : item.embedding.isSome = true) : item ∈ items' := by
  unfold embedMissing at h
  split at h
  · cases h
    exact hitem
  · obtain ⟨vectors, _, -, h⟩ := Step.bind_eq_ok_iff.1 h
    cases h
    exact mem_fill hitem hvector vectors

end Batch

/-- The provider, if there is one, answers by what it is asked alone. -/
def Context.Consistent (c : Context) : Prop :=
  ∀ provider, c.embedder = some provider → ∀ log log' request,
    provider.answer log request = provider.answer log' request

namespace Batch

/-- A consistent provider fills in the same vectors whenever it is asked. -/
theorem embedMissing_of_consistent {c : Context} (hc : c.Consistent) (collection : String)
    (metadata : Option Metadata) (items : List Item) (log log' : List EmbeddingRequest) :
    (embedMissing c collection metadata items log).1 =
      (embedMissing c collection metadata items log').1 := by
  unfold embedMissing
  split
  · rfl
  · rw [Step.bind_apply, Step.bind_apply]
    have hembed : ∀ texts, (c.embed collection texts metadata log).1 =
        (c.embed collection texts metadata log').1 := by
      intro texts
      unfold Context.embed
      cases hprovider : c.embedder with
      | none => rfl
      | some provider => simp only [hc provider hprovider log log']
    have hvectors := hembed ((items.filter pending).filterMap (·.document))
    rcases hrun : c.embed collection _ metadata log with ⟨_ | _, _⟩ <;>
      rcases hrun' : c.embed collection _ metadata log' with ⟨_ | _, _⟩ <;>
      rw [hrun, hrun'] at hvectors <;> cases hvectors <;> rfl

/-! ## Items that were read -/

/-- Putting items in order neither brings items in nor leaves any out. -/
theorem inOrderOf_perm (ids : List String) (items : List Item) :
    (inOrderOf ids items).Perm items := by
  -- on the ids that are left when the first is taken out; the items of the first come first
  induction hlen : ids.length using Nat.strongRecOn generalizing ids items with
  | _ n ih =>
  cases ids with
  | nil =>
    rw [inOrderOf, List.eraseDups_nil, List.flatMap_nil, List.append_nil]
    exact List.Perm.of_eq (List.filter_eq_self.2 fun _ _ => rfl)
  | cons id ids =>
    let others := ids.filter fun id' => !id' == id
    let rest := items.filter fun item => !decide (item.id = id)
    have hshorter : others.length < n := by
      rw [← hlen, List.length_cons]
      exact Nat.lt_succ_of_le (List.length_filter_le _ _)
    have hrest : (inOrderOf others rest).Perm rest := ih _ hshorter others rest rfl
    have hunasked : (items.filter fun item => !(id :: ids).contains item.id) =
        rest.filter fun item => !others.contains item.id := by
      rw [List.filter_filter]
      refine List.filter_congr fun item _ => ?_
      by_cases hid : item.id = id <;> simp [others, hid]
    have hasked : others.eraseDups.flatMap (fun id' => items.filter fun item => item.id = id') =
        others.eraseDups.flatMap fun id' => rest.filter fun item => item.id = id' := by
      refine List.flatMap_congr fun id' hid' => ?_
      have hne : id' ≠ id := by
        have hmem := List.mem_eraseDups.1 hid'
        simpa using (List.mem_filter.1 hmem).2
      rw [List.filter_filter]
      refine List.filter_congr fun item _ => ?_
      by_cases hid : item.id = id' <;> simp [hid, hne]
    rw [inOrderOf, List.eraseDups_cons, List.flatMap_cons, hunasked, hasked]
    refine List.Perm.trans ?_ (List.filter_append_perm (fun item => item.id = id) items)
    refine List.Perm.trans ?_ (hrest.append_left _)
    rw [inOrderOf, ← List.append_assoc, ← List.append_assoc]
    exact List.perm_append_comm.append_right _

/-! ## Updates -/

/-- An update takes over what it supplies, and drops the vector of another
document where a new one can be computed. -/
theorem updated_eq_revised (c : Context) (u : ItemUpdate) (item : Item) :
    updated c u item = item.revised c u := by
  cases he : u.embedding with
  | some v => simp [updated, ItemUpdate.leavesStale, ItemUpdate.apply, Item.revised, he]
  | none =>
    simp only [updated, ItemUpdate.leavesStale, ItemUpdate.apply, Item.revised, he,
      Option.isNone_none, Bool.true_and, Option.isSome_none, Bool.false_eq_true, if_false]
    -- both drop the vector in the same of the eight cases
    cases c.embedder.isSome <;> cases u.document.isSome <;>
      cases u.document != item.document <;> rfl

/-- What an update writes has the metadata that it supplies or that is stored. -/
theorem metadata_of_applyAll {c : Context} {plain : Metadata → Prop} {stored : List Item}
    {updates : List ItemUpdate} {items : List Item} (hstored : ∀ item ∈ stored, plain item.metadata)
    (hupdates : ∀ u ∈ updates, ∀ m, u.metadata = some m → plain m)
    (h : applyAll c stored updates = .ok items) : ∀ item ∈ items, plain item.metadata := by
  induction updates generalizing items with
  | nil =>
    cases h
    simp
  | cons u updates ih =>
    rw [List.forall_mem_cons] at hupdates
    rw [applyAll] at h
    split at h
    · cases h
    · rename_i item hitem
      split at h
      · cases h
      · rename_i rest hrest
        cases h
        refine List.forall_mem_cons.2 ⟨?_, ih hupdates.2 hrest⟩
        have hmem : item ∈ stored := (List.mem_filter.1 (List.mem_of_getLast? hitem)).1
        have hmeta : (updated c u item).metadata = u.metadata.getD item.metadata := by
          unfold updated
          split <;> rfl
        rw [hmeta]
        cases hu : u.metadata with
        | none => exact hstored item hmem
        | some m => exact hupdates.1 m hu

/-- Only stored items are updated. -/
theorem exists_of_applyAll {c : Context} {stored items : List Item} {updates : List ItemUpdate}
    (h : applyAll c stored updates = .ok items) :
    ∀ u ∈ updates, ∃ item ∈ stored, item.id = u.id := by
  induction updates generalizing items with
  | nil => exact fun _ hu => by cases hu
  | cons u updates ih =>
    rw [applyAll] at h
    split at h
    · cases h
    · rename_i item hlast
      have hitem := List.mem_filter.1 (List.mem_of_getLast? hlast)
      split at h
      · cases h
      · rename_i rest hrest
        rw [List.forall_mem_cons]
        exact ⟨⟨item, hitem.1, by simpa using hitem.2⟩, ih hrest⟩

theorem exists_of_mergeUpdates {c : Context} {stored items : List Item} {updates : List ItemUpdate}
    (h : mergeUpdates c stored updates = .ok items) :
    ∀ u ∈ updates, ∃ item ∈ stored, item.id = u.id := by
  rw [mergeUpdates] at h
  split at h
  · cases h
  · exact exists_of_applyAll h

variable {find? : String → Option Item} {ids : List String}

/-- The stored item of an id that was asked for. -/
theorem getLast?_filter_found (hfind : ∀ id item, find? id = some item → item.id = id) {id : String}
    (hid : id ∈ ids) :
    ((ids.filterMap find?).filter fun item => item.id = id).getLast? = find? id := by
  have hone : ((ids.filterMap find?).filter fun item => item.id = id) =
      (ids.filter (· = id)).filterMap find? := by
    rw [List.filter_filterMap, List.filterMap_filter]
    refine List.filterMap_congr fun other _ => ?_
    cases hlook : find? other with
    | none => simp
    | some item => simp [Option.filter, hfind other item hlook]
  -- an id that is asked for is looked up once or more, to the same item each time
  have hpos : 0 < ids.count id := List.count_pos_iff.2 hid
  rw [hone, List.filter_eq]
  cases hlook : find? id with
  | none => rw [List.filterMap_replicate_of_none hlook]; rfl
  | some item =>
    rw [List.filterMap_replicate_of_some hlook, List.getLast?_replicate, if_neg (by omega)]

/-- Updates revise the items of their ids, or miss one of them. -/
theorem applyAll_found (c : Context) (hfind : ∀ id item, find? id = some item → item.id = id)
    {updates : List ItemUpdate} (hids : ∀ u ∈ updates, u.id ∈ ids) :
    applyAll c (ids.filterMap find?) updates =
      updates.mapM fun u =>
        match find? u.id with
        | some item => .ok (item.revised c u)
        | none => .error (.notFound s!"item '{u.id}'") := by
  induction updates with
  | nil => rfl
  | cons u updates ih =>
    rw [List.forall_mem_cons] at hids
    rw [applyAll, getLast?_filter_found hfind hids.1, ih hids.2, List.mapM_cons]
    cases find? u.id with
    | none => rfl
    | some item =>
      simp only [updated_eq_revised]
      generalize updates.mapM (m := Result) _ = rest
      cases rest <;> rfl

end Batch

end VectorBridge
