import VectorBridge.Proofs.Connection.Removal
import VectorBridge.Proofs.Qdrant.ById
import VectorBridge.Proofs.Weaviate.ById
/-!
# Ids that share a UUID

Qdrant and Weaviate servers tell items by the UUIDs of their ids. An id that is
the text of a UUID stands for it, and every other id is turned into one, so a
UUID that an id is turned into has a second id: its text. A batch with two ids of
one UUID is refused; what earlier calls have stored is not looked at. An addition
thus takes the place of an item with another id, and a read and a removal by id
reach it, exactly when the two ids share a UUID.
-/

namespace VectorBridge

/-- What a collection shows without what stands under the UUIDs of some ids. -/
theorem Holding.mem_without_underUuids {h : Holding} {ids : List String} {item : Item} :
    item ∈ (h.without (underUuids ids h.items)).items ↔
      item ∈ h.items ∧ item.id ∉ ids ∧ item ∉ sharing ids h.items := by
  rw [items_without, List.mem_filter, Bool.not_eq_true', ← Bool.not_eq_true,
    List.contains_iff_mem]
  constructor
  · rintro ⟨hitem, hleft⟩
    refine ⟨hitem, fun hid => hleft ?_, fun hshared => hleft ?_⟩
    · exact List.mem_map_of_mem (mem_underUuids_iff.2 ⟨hitem, .inl hid⟩)
    · exact List.mem_map_of_mem (mem_underUuids_iff.2 ⟨hitem, .inr hshared⟩)
  · rintro ⟨hitem, hid, hshared⟩
    refine ⟨hitem, fun hgone => ?_⟩
    obtain ⟨other, hother, hsame⟩ := List.mem_map.1 hgone
    have hkey : (uuidKey item.id).1 ∈ uuidsOf ids := hsame ▸ (mem_underUuids.1 hother).2
    exact (mem_underUuids_iff.1 (mem_underUuids.2 ⟨hitem, hkey⟩)).2.elim hid hshared

namespace Connection

/-- Whether the server keeps items under UUIDs. -/
def uuidKeyed : Connection → Bool
  | qdrant _ | weaviate _ => true
  | _ => false

/-- Calls on a collection treat the items that share a UUID with the ids they are
given as items of these ids. -/
structure TreatsByUuid (c : Connection) (name : String) (h : Holding) : Prop where
  /-- An addition fails and changes nothing, or leaves all items of other ids but
  the sharing ones, and an item of each of its ids. -/
  add : ∀ {items r c'}, (∀ item ∈ items, Metadata.Plain item.metadata) →
    addItems name items c = (r, c') →
      (r ≠ .ok () → ∀ other, c'.holding? other = c.holding? other) ∧
      (r = .ok () → ∃ h', c.Changed c' (c.serverName name) h' ∧
        Family.Placed items h.items h'.items)
  /-- A read succeeds and finds the items of the ids and the sharing ones. -/
  get : ∀ ids, Managed.isConnected c = true →
    ∃ found, getItems name ids c = (.ok found, c) ∧
      ∀ item, item ∈ found ↔ item ∈ h.items ∧ (item.id ∈ ids ∨ item ∈ sharing ids h.items)
  /-- A removal succeeds and leaves the others as they were. -/
  delete : ∀ ids {filter}, Managed.isConnected c = true → selective filter = none →
    ∃ c', deleteItems name ids filter c = (.ok (), c') ∧
      c.Changed c' (c.serverName name) (h.without (underUuids ids h.items)) ∧
      ∀ item, item ∈ (h.without (underUuids ids h.items)).items ↔
        item ∈ h.items ∧ item.id ∉ ids ∧ item ∉ sharing ids h.items

/-! ## Sessions of a family -/

section Family

variable {τ Held Row Handle Condition Fragment : Type} {V : Storage τ Held Row Fragment}
variable {F : Family τ Handle Condition Fragment} {I : τ → Prop} {stored : Item → Item}
variable {mk : Session τ → Connection} {inj : Held → Holding}

/-- **Sessions of a family that keeps items under UUIDs treat them so.** -/
theorem treatsByUuid_of_family (W : WrapsById V F mk inj) (L : V.Lawful F I)
    (U : V.UuidKeyed F I stored) {s : Session τ} (hI : I s.server) {name : String} {h : Holding}
    (hheld : (mk s).holding? ((mk s).serverName name) = some h) :
    (h.items.map (·.id)).Nodup ∧ (mk s).TreatsByUuid name h := by
  rw [W.serverName, W.holding?] at hheld
  obtain ⟨held, hstored, rfl⟩ := Option.map_eq_some_iff.1 hheld
  obtain ⟨handle, hattach⟩ := L.attach_of_held hstored
  have ho : V.Opened F I s.server name handle held := ⟨hI, hattach, hstored⟩
  constructor
  · rw [W.items]
    exact L.nodup hI hstored
  refine ⟨fun {items r c'} hplain hadd => ?_, fun ids hconn => ?_,
    fun ids filter hconn hfilter => ?_⟩
  · rw [W.add] at hadd
    obtain ⟨rfl, rfl⟩ := Prod.mk.inj hadd
    obtain ⟨hfailed, hdone⟩ := Family.addItems_underUuids U L hI hstored hplain rfl
    refine ⟨fun hne other => ?_, fun hok => ?_⟩
    · rw [W.holding?, W.holding?, hfailed hne]
    · obtain ⟨held', hchanged, hplaced⟩ := hdone hok
      rw [W.serverName, W.items]
      exact ⟨inj held', W.changed hchanged, by rw [W.items]; exact hplaced⟩
  · rw [W.isConnected] at hconn
    obtain ⟨found, hget, hmem⟩ := Family.getItems_underUuids U ho hconn ids
    refine ⟨found, by rw [W.get, hget]; rfl, fun item => ?_⟩
    rw [hmem, W.items, mem_underUuids_iff]
  · rw [W.isConnected] at hconn
    obtain ⟨s', hdel, hchanged⟩ := Family.deleteItems_underUuids U L ho hconn ids hfilter
    rw [W.serverName]
    refine ⟨mk s', by rw [W.delete, hdel]; rfl, ?_, fun item => ?_⟩
    · rw [W.items, W.without]
      exact W.changed hchanged
    · exact Holding.mem_without_underUuids

end Family

/-- **Items of ids that share a UUID, and no others, are treated as one.** Take any
connection that calls have led to, whose server keeps items under UUIDs, and a
collection there. Its items have distinct ids. An addition that fails changes
nothing, and one that succeeds leaves every item of another id, unless the item
shares a UUID with an id of the batch, and has an item of every id of the batch.
A read by id finds the items of these ids and those that share a UUID with one of
them, and a removal by id leaves the rest. An item shares a UUID with another id
only if the UUID derived from one of the two is derived from the other as well,
or is the other's text; and every item whose id is turned into a UUID shares it
with the UUID's text. -/
theorem ids_of_one_uuid_treated_as_one {c : Connection} (hc : c.Reached)
    (hkeyed : c.uuidKeyed = true) {name : String} {h : Holding}
    (hheld : c.holding? (c.serverName name) = some h) :
    (h.items.map (·.id)).Nodup ∧ c.TreatsByUuid name h ∧
      (∀ ids, ∀ item ∈ sharing ids h.items, ∃ id ∈ ids, id ≠ item.id ∧ Uuid.Meet id item.id) ∧
      ∀ item ∈ h.items, (uuidKey item.id).2 = true →
        item ∈ sharing [(Uuid.derive item.id).text] h.items := by
  have hsound := hc.sound
  have hfamily : (h.items.map (·.id)).Nodup ∧ c.TreatsByUuid name h := by
    cases c with
    | qdrant s =>
      exact treatsByUuid_of_family wrapsById_qdrant Qdrant.lawful Qdrant.uuidKeyed hsound hheld
    | weaviate s =>
      exact treatsByUuid_of_family wrapsById_weaviate Weaviate.lawful Weaviate.uuidKeyed hsound
        hheld
    | chroma | chromaRest | postgres | milvus | milvusRest | weaviateRest | tables | directory
    | unsteady => cases hkeyed
  exact ⟨hfamily.1, hfamily.2, fun ids item => meet_of_mem_sharing,
    fun item => mem_sharing_text⟩

/-! ## An id and the text of its UUID -/

/-- The ids of the items that are read for an id, those that are there after it has
been removed, and those after it has been added. -/
def readLeftAndAdded (id : String) (c : Connection) :
    Option (List String × Option (List String) × Option (List String)) :=
  match getItems "docs" [id] c, deleteItems "docs" [id] none c, addItems "docs" [sample id] c with
  | (.ok found, _), (.ok (), c₁), (.ok (), c₂) =>
    some (found.map (·.id), c₁.idsOf "docs", c₂.idsOf "docs")
  | _, _, _ => none

theorem of_readLeftAndAdded {id : String} {c : Connection} {read : List String}
    {left after : Option (List String)} (h : c.readLeftAndAdded id = some (read, left, after)) :
    ∃ found c₁ c₂ c₃, getItems "docs" [id] c = (.ok found, c₁) ∧ found.map (·.id) = read ∧
      deleteItems "docs" [id] none c = (.ok (), c₂) ∧ c₂.idsOf "docs" = left ∧
      addItems "docs" [sample id] c = (.ok (), c₃) ∧ c₃.idsOf "docs" = after := by
  rw [readLeftAndAdded] at h
  split at h
  · rename_i found c₁ c₂ c₃ hget hdel hadd
    cases h
    exact ⟨found, c₁, c₂, c₃, hget, rfl, hdel, rfl, hadd, rfl⟩
  · cases h

/-- A new connection with a collection of two items. -/
def twoStored : Connection :=
  (weaviate (.start .empty .empty)).prepared.adding ["doc_1", "doc_2"]

/-- Of two items, one shares its UUID with the text of it. -/
theorem ids_of_one_uuid_treated_as_one_of_two :
    ∃ h, twoStored.Reached ∧ twoStored.uuidKeyed = true ∧
      twoStored.holding? (twoStored.serverName "docs") = some h ∧
      h.items.map (·.id) = ["doc_1", "doc_2"] ∧
      (sharing ["10e57509-1331-560e-b825-b49df3fe209b"] h.items).map (·.id) = ["doc_1"] ∧
      (h.items.map (·.id)).Nodup ∧ twoStored.TreatsByUuid "docs" h ∧
      (∀ ids, ∀ item ∈ sharing ids h.items, ∃ id ∈ ids, id ≠ item.id ∧ Uuid.Meet id item.id) ∧
      ∀ item ∈ h.items, (uuidKey item.id).2 = true →
        item ∈ sharing [(Uuid.derive item.id).text] h.items := by
  have hrun : (twoStored.holding? (twoStored.serverName "docs")).map
      (fun h => (h.items.map (·.id),
        (sharing ["10e57509-1331-560e-b825-b49df3fe209b"] h.items).map (·.id))) =
      some (["doc_1", "doc_2"], ["doc_1"]) := by decide +kernel
  obtain ⟨h, hheld, hfacts⟩ := Option.map_eq_some_iff.1 hrun
  obtain ⟨hids, hshared⟩ := Prod.mk.inj hfacts
  have hreached : twoStored.Reached := (Fresh.prepared (.weaviate _)).adding _
  have hkeyed : twoStored.uuidKeyed = true := by decide +kernel
  exact ⟨h, hreached, hkeyed, hheld, hids, hshared,
    ids_of_one_uuid_treated_as_one hreached hkeyed hheld⟩

/-- Calls on a collection that has the item `doc_1` alone take the text of its UUID
for its id: the item is read and removed for the text, and is gone once an item is
added under it. -/
structure TakesTextForId (c : Connection) : Prop where
  reached : c.Reached
  before : c.idsOf "docs" = some ["doc_1"]
  read : ∃ found c', getItems "docs" ["10e57509-1331-560e-b825-b49df3fe209b"] c =
    (.ok found, c') ∧ found.map (·.id) = ["doc_1"]
  removed : ∃ c', deleteItems "docs" ["10e57509-1331-560e-b825-b49df3fe209b"] none c =
    (.ok (), c') ∧ c'.idsOf "docs" = some []
  replaced : ∃ c', addItems "docs" [sample "10e57509-1331-560e-b825-b49df3fe209b"] c =
    (.ok (), c') ∧ c'.idsOf "docs" = some ["10e57509-1331-560e-b825-b49df3fe209b"]

theorem TakesTextForId.of_run {c : Connection} (hc : c.Reached)
    (hbefore : c.idsOf "docs" = some ["doc_1"])
    (hrun : c.readLeftAndAdded "10e57509-1331-560e-b825-b49df3fe209b" =
      some (["doc_1"], some [], some ["10e57509-1331-560e-b825-b49df3fe209b"])) :
    c.TakesTextForId := by
  obtain ⟨found, c₁, c₂, c₃, hget, hfound, hdel, hleft, hadd, hafter⟩ := of_readLeftAndAdded hrun
  exact ⟨hc, hbefore, ⟨found, c₁, hget, hfound⟩, ⟨c₂, hdel, hleft⟩, ⟨c₃, hadd, hafter⟩⟩

/-- An id that is the text of another id's UUID, in collections that have the other
alone. -/
theorem id_taken_for_text_of_its_uuid :
    ((qdrant (.start .empty .empty)).prepared.adding ["doc_1"]).TakesTextForId ∧
      ((weaviate (.start .empty .empty)).prepared.adding ["doc_1"]).TakesTextForId := by
  constructor
  · exact .of_run ((Fresh.prepared (.qdrant _)).adding _) (by decide +kernel)
      (by decide +kernel)
  · exact .of_run ((Fresh.prepared (.weaviate _)).adding _) (by decide +kernel)
      (by decide +kernel)

end Connection

end VectorBridge
