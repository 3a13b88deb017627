import VectorBridge.Identifier
import VectorBridge.Proofs.Keyed
import VectorBridge.Proofs.Uuid
/-!
# Ids read off keys

A key keeps an id when it is the id's own form, and else the id stands beside it
under the reserved key. Metadata that leaves the reserved key alone is plain;
the id of an item with plain metadata is the one it was given, and metadata read
back is plain. Two ids have one UUID when it is derived from both, or derived
from one and written out by the other.
-/

namespace VectorBridge

/-- Metadata without the reserved key. -/
def Metadata.Plain (m : Metadata) : Prop := Keyed.get? givenIdKey m = none

instance (m : Metadata) : Decidable m.Plain :=
  inferInstanceAs (Decidable (Keyed.get? givenIdKey m = none))

/-- An item's id survives its storage when it is kept beside the key, and else when
the item's metadata has no other text under the reserved key. -/
def Item.IdSurvives (kept : Bool) (item : Item) : Prop :=
  kept = true ∨
    ∀ given, Keyed.get? givenIdKey item.metadata = some (.str given) → given = item.id

theorem Item.idSurvives_of_plain {item : Item} (h : Metadata.Plain item.metadata)
    (kept : Bool) : item.IdSurvives kept := by
  refine .inr fun given hgiven => ?_
  have hnone : Keyed.get? givenIdKey item.metadata = none := h
  rw [hnone] at hgiven
  cases hgiven

/-- An id that is not kept beside its UUID is the text of it. -/
theorem uuidKey_text {id : String} (h : (uuidKey id).2 = false) : (uuidKey id).1.text = id := by
  cases hparse : Uuid.parse? id with
  | none =>
    simp only [uuidKey, hparse] at h
    exact Bool.noConfusion h
  | some u =>
    by_cases hu : u.text = id
    · have hkey : uuidKey id = (u, false) := by simp only [uuidKey, hparse, if_pos hu]
      rw [hkey]
      exact hu
    · simp only [uuidKey, hparse, if_neg hu] at h
      exact Bool.noConfusion h

/-- An id that is kept beside its UUID is what the UUID is derived from. -/
theorem uuidKey_of_kept {id : String} (h : (uuidKey id).2 = true) :
    (uuidKey id).1 = Uuid.derive id := by
  unfold uuidKey at h ⊢
  cases hparse : Uuid.parse? id with
  | none => rfl
  | some u =>
    rw [hparse] at h
    simp only at h ⊢
    split at h
    · cases h
    · rename_i hu
      rw [if_neg hu]

/-- The text of a UUID is an id that stands for the UUID. -/
theorem uuidKey_of_text (u : Uuid) : uuidKey u.text = (u, false) := by
  simp only [uuidKey, Uuid.parse?_text, if_pos]

/-- The UUIDs that two ids stand for or are turned into meet: what is derived from
one is derived from the other as well, or written out by it. -/
def Uuid.Meet (a b : String) : Prop :=
  derive a = derive b ∨ a = (derive b).text ∨ b = (derive a).text

/-- **Ids of one UUID** are one id, or their UUIDs meet. -/
theorem eq_or_meet_of_uuidKey_eq {a b : String} (h : (uuidKey a).1 = (uuidKey b).1) :
    a = b ∨ Uuid.Meet a b := by
  cases ha : (uuidKey a).2 with
  | true =>
    rw [uuidKey_of_kept ha] at h
    cases hb : (uuidKey b).2 with
    | true => exact .inr (.inl (h.trans (uuidKey_of_kept hb)))
    | false => exact .inr (.inr (.inr (by rw [h, uuidKey_text hb])))
  | false =>
    cases hb : (uuidKey b).2 with
    | true => exact .inr (.inr (.inl (by rw [← uuidKey_of_kept hb, ← h, uuidKey_text ha])))
    | false => exact .inl (by rw [← uuidKey_text ha, h, uuidKey_text hb])

namespace IdKind

/-- Keys are given out under distinct UUIDs, none of which was given out before. -/
theorem nodup_of_mapFrom {items : List Item} {position : Nat} {seen : List (BackendId × String)}
    {ms : List MappedId} (h : uuid.mapFrom position seen items = .ok ms) :
    (items.map fun item => (uuidKey item.id).1).Nodup ∧
      ∀ item ∈ items, seen.lookup (.uuid (uuidKey item.id).1) = none := by
  induction items generalizing position seen ms with
  | nil => exact ⟨List.nodup_nil, nofun⟩
  | cons item items ih =>
    simp only [mapFrom, map?, Option.getD_some] at h
    split at h
    · cases h
    · rename_i hnew
      split at h
      · rename_i hrest
        obtain ⟨hdistinct, hunseen⟩ := ih hrest
        -- a later item of the same UUID would have found the one of this item
        have hapart : ∀ other ∈ items, (uuidKey other.id).1 ≠ (uuidKey item.id).1 ∧
            seen.lookup (.uuid (uuidKey other.id).1) = none := by
          intro other hother
          have hlookup := hunseen other hother
          rw [List.lookup_cons] at hlookup
          by_cases heq : (uuidKey other.id).1 = (uuidKey item.id).1
          · rw [heq, beq_self_eq_true] at hlookup
            cases hlookup
          · rw [beq_eq_false_iff_ne.2 fun hcon => heq (BackendId.uuid.inj hcon)] at hlookup
            exact ⟨heq, hlookup⟩
        refine ⟨?_, List.forall_mem_cons.2 ⟨hnew, fun other hother => (hapart other hother).2⟩⟩
        refine List.nodup_cons.2 ⟨fun hmem => ?_, hdistinct⟩
        obtain ⟨other, hother, heq⟩ := List.mem_map.1 hmem
        exact (hapart other hother).1 heq
      · cases h

/-- **A batch with keys has distinct UUIDs.** -/
theorem nodup_of_mapBatch {items : List Item} {ms : List MappedId}
    (h : uuid.mapBatch items = .ok ms) : (items.map fun item => (uuidKey item.id).1).Nodup :=
  (nodup_of_mapFrom h).1

/-- A batch is refused keys for what it is. -/
theorem kind_of_mapFrom {k : IdKind} {items : List Item} {position : Nat}
    {seen : List (BackendId × String)} {e : Error} (h : k.mapFrom position seen items = .error e) :
    e.kind = .invalidInput := by
  induction items generalizing position seen with
  | nil => cases h
  | cons item items ih =>
    simp only [mapFrom] at h
    split at h
    · cases h
      rfl
    · split at h
      · cases h
      · cases h
        exact ih ‹_›

/-- The id beside a key is the one that is read. -/
theorem recover_of_given {key : BackendId} {metadata : Metadata} {id : String}
    (h : Keyed.get? givenIdKey metadata = some (.str id)) : (recover key metadata).1 = id := by
  rw [recover, h]

/-- Of a key with plain metadata the text is the id. -/
theorem recover_of_plain {key : BackendId} {metadata : Metadata} (h : Metadata.Plain metadata) :
    (recover key metadata).1 = key.text := by
  rw [recover, h]

/-- The metadata that is read back is all but the reserved entry. -/
theorem recover_snd (key : BackendId) (metadata : Metadata) :
    (recover key metadata).2 = Keyed.erase givenIdKey metadata := by
  unfold recover
  split <;> rfl

/-- What is read back is plain. -/
theorem plain_recover (key : BackendId) (metadata : Metadata) :
    Metadata.Plain (recover key metadata).2 := by
  rw [recover_snd]
  exact Keyed.get?_erase_self _ _

/-- Without a text under the reserved key the id is that of the key. -/
theorem recover_of_no_text {key : BackendId} {metadata : Metadata}
    (h : ∀ given, Keyed.get? givenIdKey metadata ≠ some (.str given)) :
    (recover key metadata).1 = key.text := by
  unfold recover
  split
  · rename_i given hgiven
    exact absurd hgiven (h given)
  · rfl

/-- **An item is read under its id** exactly when the id survives. -/
theorem recover_eq_id_iff {key : BackendId} {metadata : Metadata} {item : Item} {kept : Bool}
    (hkey : kept = false → key.text = item.id)
    (hgiven : Keyed.get? givenIdKey metadata =
      if kept then some (.str item.id) else Keyed.get? givenIdKey item.metadata) :
    (recover key metadata).1 = item.id ↔ item.IdSurvives kept := by
  cases kept with
  | true =>
    have hid : (recover key metadata).1 = item.id := recover_of_given hgiven
    exact ⟨fun _ => .inl rfl, fun _ => hid⟩
  | false =>
    rw [if_neg Bool.false_ne_true] at hgiven
    have htext : key.text = item.id := hkey rfl
    rw [Item.IdSurvives, or_iff_right Bool.false_ne_true, ← hgiven]
    by_cases hsome : ∃ given, Keyed.get? givenIdKey metadata = some (.str given)
    · obtain ⟨given, hmeta⟩ := hsome
      have hread : (recover key metadata).1 = given := recover_of_given hmeta
      rw [hread, hmeta]
      constructor
      · rintro rfl other hother
        exact (Json.str.inj (Option.some.inj hother)).symm
      · intro hfree
        exact hfree given rfl
    · rw [not_exists] at hsome
      have hread : (recover key metadata).1 = key.text := recover_of_no_text hsome
      exact ⟨fun _ given hmeta => absurd hmeta (hsome given), fun _ => hread.trans htext⟩

/-- An item under the UUID of its id, with the id beside it where that is no UUID's
text, is read under its id exactly when the id survives. -/
theorem recover_uuidKey_eq_id_iff {item : Item} {metadata : Metadata}
    (h : Keyed.get? givenIdKey metadata =
      if (uuidKey item.id).2 then some (.str item.id) else Keyed.get? givenIdKey item.metadata) :
    (recover (.uuid (uuidKey item.id).1) metadata).1 = item.id ↔
      item.IdSurvives (uuidKey item.id).2 :=
  recover_eq_id_iff uuidKey_text h

end IdKind

/-! ## Documents beside metadata

Where an item is kept under a UUID, its document is put into one map with its
metadata, under a key of its own, and so is its id under the reserved key unless the
UUID tells it. Reading takes both out again. What is found of an item depends on what
its metadata has under these two keys: the id survives as it does everywhere, and the
document and the metadata when the metadata leaves the key of the document alone.
-/

namespace Item

variable {documentKey : String} {item : Item}

/-- The metadata of an item with its document under a key, and with its id under the
reserved key where that is kept. -/
def folded (documentKey : String) (keepsId : Bool) (item : Item) : Metadata :=
  let fields := match item.document with
    | some d => Keyed.insert documentKey (.str d) item.metadata
    | none => item.metadata
  if keepsId then Keyed.insert givenIdKey (.str item.id) fields else fields

/-- Each field holds the id, the document or what the metadata has there. -/
theorem get?_folded (keepsId : Bool) (field : String) :
    Keyed.get? field (item.folded documentKey keepsId) =
      if keepsId = true ∧ givenIdKey = field then some (.str item.id)
      else if documentKey = field then
        (item.document.map Json.str).or (Keyed.get? field item.metadata)
      else Keyed.get? field item.metadata := by
  have hfields : Keyed.get? field (item.folded documentKey false) =
      if documentKey = field then (item.document.map Json.str).or (Keyed.get? field item.metadata)
      else Keyed.get? field item.metadata := by
    rw [folded]
    cases item.document with
    | none => exact (ite_self _).symm
    | some d => exact Keyed.get?_insert _ _ _ _
  cases keepsId with
  | false => exact hfields.trans (if_neg fun h => Bool.false_ne_true h.1).symm
  | true =>
    have hput : item.folded documentKey true =
        Keyed.insert givenIdKey (.str item.id) (item.folded documentKey false) := rfl
    rw [hput, Keyed.get?_insert, hfields]
    simp only [true_and]

/-- **An item that is folded is read under its id** exactly when the id survives. -/
theorem recover_folded_id_iff (hne : documentKey ≠ givenIdKey) :
    (IdKind.recover (.uuid (uuidKey item.id).1)
        (Keyed.erase documentKey (item.folded documentKey (uuidKey item.id).2))).1 = item.id ↔
      item.IdSurvives (uuidKey item.id).2 := by
  refine IdKind.recover_uuidKey_eq_id_iff ?_
  rw [Keyed.get?_erase_of_ne hne, get?_folded, if_neg hne]
  simp only [and_true]

/-- **The document and the metadata of an item that is folded are read back**, when the
metadata leaves their key and the reserved key alone. -/
theorem unfold_folded (keepsId : Bool) (key : BackendId) (hne : documentKey ≠ givenIdKey)
    (hfree : Keyed.get? documentKey item.metadata = none)
    (hplain : Metadata.Plain item.metadata) :
    (Keyed.get? documentKey (item.folded documentKey keepsId)).bind Json.str? = item.document ∧
      ∀ field, Keyed.get? field
          (IdKind.recover key (Keyed.erase documentKey (item.folded documentKey keepsId))).2 =
        Keyed.get? field item.metadata := by
  constructor
  · rw [get?_folded, if_neg fun h => hne h.2.symm, if_pos rfl, hfree, Option.or_none]
    cases item.document <;> rfl
  · intro field
    rw [IdKind.recover_snd, Keyed.get?_erase, Keyed.get?_erase]
    by_cases hgiven : givenIdKey = field
    · rw [if_pos hgiven, ← hgiven]
      exact hplain.symm
    by_cases hdocument : documentKey = field
    · rw [if_neg hgiven, if_pos hdocument, ← hdocument, hfree]
    rw [if_neg hgiven, if_neg hdocument, get?_folded, if_neg fun h => hgiven h.2,
      if_neg hdocument]

end Item

end VectorBridge
