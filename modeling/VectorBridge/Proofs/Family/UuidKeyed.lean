import VectorBridge.Proofs.Family.ById
import VectorBridge.Proofs.Identifier
/-!
# Items under UUIDs

Some families keep an item under the UUID of its id and ask for ids by their
UUIDs. What such a family does to the items of some ids it does to all that
stand under the UUIDs of these ids: `sharing` collects those of them that have
another id. Reads and removals take the shared ones as well, and an addition
puts its items in their place.
-/

namespace VectorBridge

/-- The UUIDs of some ids. -/
def uuidsOf (ids : List String) : List Uuid := ids.map fun id => (uuidKey id).1

/-- The items that stand under the UUIDs of some ids. -/
def underUuids (ids : List String) (items : List Item) : List Item :=
  items.filter fun item => (uuidsOf ids).contains (uuidKey item.id).1

/-- Those of them whose own id is another. -/
def sharing (ids : List String) (items : List Item) : List Item :=
  (underUuids ids items).filter fun item => !ids.contains item.id

theorem mem_underUuids {ids : List String} {items : List Item} {item : Item} :
    item ∈ underUuids ids items ↔ item ∈ items ∧ (uuidKey item.id).1 ∈ uuidsOf ids := by
  rw [underUuids, List.mem_filter, List.contains_iff_mem]

theorem mem_sharing {ids : List String} {items : List Item} {item : Item} :
    item ∈ sharing ids items ↔
      item ∈ items ∧ (uuidKey item.id).1 ∈ uuidsOf ids ∧ item.id ∉ ids := by
  rw [sharing, List.mem_filter, mem_underUuids, and_assoc]
  simp

/-- What stands under the UUIDs of some ids has one of these ids or shares its
UUID. -/
theorem mem_underUuids_iff {ids : List String} {items : List Item} {item : Item} :
    item ∈ underUuids ids items ↔
      item ∈ items ∧ (item.id ∈ ids ∨ item ∈ sharing ids items) := by
  rw [mem_underUuids, mem_sharing]
  constructor
  · rintro ⟨hitem, hkey⟩
    by_cases hid : item.id ∈ ids
    · exact ⟨hitem, .inl hid⟩
    · exact ⟨hitem, .inr ⟨hitem, hkey, hid⟩⟩
  · rintro ⟨hitem, hid | ⟨-, hkey, -⟩⟩
    · exact ⟨hitem, List.mem_map_of_mem hid⟩
    · exact ⟨hitem, hkey⟩

/-- **An item shares its UUID** with an id whose UUID meets that of its own. -/
theorem meet_of_mem_sharing {ids : List String} {items : List Item} {item : Item}
    (h : item ∈ sharing ids items) : ∃ id ∈ ids, id ≠ item.id ∧ Uuid.Meet id item.id := by
  obtain ⟨-, hkey, hother⟩ := mem_sharing.1 h
  obtain ⟨id, hid, heq⟩ := List.mem_map.1 hkey
  have hne : id ≠ item.id := fun hsame => hother (hsame ▸ hid)
  exact ⟨id, hid, hne, (eq_or_meet_of_uuidKey_eq heq).resolve_left hne⟩

/-- An item whose id is turned into a UUID shares it with the UUID's text. -/
theorem mem_sharing_text {items : List Item} {item : Item} (hitem : item ∈ items)
    (hkept : (uuidKey item.id).2 = true) :
    item ∈ sharing [(Uuid.derive item.id).text] items := by
  have hkey : (uuidKey item.id).1 ∈ uuidsOf [(Uuid.derive item.id).text] := by
    rw [uuidsOf, List.map_singleton, uuidKey_of_text, uuidKey_of_kept hkept]
    exact List.mem_singleton_self _
  have hother : item.id ∉ [(Uuid.derive item.id).text] := by
    intro hmem
    -- an id that is a UUID's text stands for it, and is turned into none
    have htext : item.id = (Uuid.derive item.id).text := List.mem_singleton.1 hmem
    rw [htext, uuidKey_of_text] at hkept
    cases hkept
  exact mem_sharing.2 ⟨hitem, hkey, hother⟩

variable {τ Held Row Handle Condition Fragment : Type}

/-- What a write of a batch did: it failed and changed nothing, or it put the items
of the batch, as they are read, in the place of those under their UUIDs. -/
def Storage.Places (V : Storage τ Held Row Fragment) (stored : Item → Item) (name : String)
    (held : Held) (batch : List Item) (t : τ) (r : Result Unit × τ) : Prop :=
  (r.1 ≠ .ok () ∧ r.2 = t) ∨
    r.1 = .ok () ∧ ∃ held', V.Changed t r.2 name held' ∧
      ∀ item, item ∈ V.items held' ↔ (∃ given ∈ batch, stored given = item) ∨
        item ∈ V.items held ∧ (uuidKey item.id).1 ∉ uuidsOf (batch.map (·.id))

/-- The items are those of the batch and those of other UUIDs where the rows are. -/
theorem Storage.mem_items_of_rows (V : Storage τ Held Row Fragment) (held : Held) {held' : Held}
    {batch : List Item} (rowOf : Item → Row) (hread : V.itemOf held' = V.itemOf held)
    (hrows : ∀ row, row ∈ V.rows held' ↔ (∃ given ∈ batch, rowOf given = row) ∨
      row ∈ V.rows held ∧ (uuidKey (V.itemOf held row).id).1 ∉ uuidsOf (batch.map (·.id)))
    (item : Item) :
    item ∈ V.items held' ↔ (∃ given ∈ batch, V.itemOf held (rowOf given) = item) ∨
      item ∈ V.items held ∧ (uuidKey item.id).1 ∉ uuidsOf (batch.map (·.id)) := by
  rw [Storage.items, Storage.items, List.mem_map, List.mem_map, hread]
  constructor
  · rintro ⟨row, hrow, rfl⟩
    rcases (hrows row).1 hrow with ⟨given, hgiven, rfl⟩ | ⟨hold, hkey⟩
    · exact .inl ⟨given, hgiven, rfl⟩
    · exact .inr ⟨⟨row, hold, rfl⟩, hkey⟩
  · rintro (⟨given, hgiven, rfl⟩ | ⟨⟨row, hold, rfl⟩, hkey⟩)
    · exact ⟨_, (hrows _).2 (.inl ⟨given, hgiven, rfl⟩), rfl⟩
    · exact ⟨row, (hrows row).2 (.inr ⟨hold, hkey⟩), rfl⟩

/-- The questions of a family treat the items of some ids as those under their
UUIDs. An item that is written is read as `stored` says. -/
structure Storage.UuidKeyed (V : Storage τ Held Row Fragment)
    (F : Family τ Handle Condition Fragment) (I : τ → Prop) (stored : Item → Item) : Prop where
  id_stored : ∀ {item}, Metadata.Plain item.metadata → (stored item).id = item.id
  selects_iff : ∀ {t name held}, I t → V.held? t name = some held → ∀ {row}, row ∈ V.rows held →
    ∀ {ids}, V.selects held ids row = true ↔ (uuidKey (V.itemOf held row).id).1 ∈ uuidsOf ids
  fetch : ∀ {t name h held}, V.Opened F I t name h held → ∀ ids,
    ∃ found, F.fetch h ids t = (.ok found, t) ∧ (ids = [] → found = []) ∧
      ∀ item, item ∈ found ↔ item ∈ underUuids ids (V.items held)
  erase : ∀ {t name h held}, V.Opened F I t name h held → ∀ ids,
    ∃ t', F.eraseIds h ids t = (.ok (), t')
  write : ∀ {t name h held}, V.Opened F I t name h held →
    ∀ batch, V.Places stored (V.serverName name) held batch t (F.write h batch t)

namespace Family

variable {F : Family τ Handle Condition Fragment} {V : Storage τ Held Row Fragment}
variable {I : τ → Prop} {stored : Item → Item} {s : Session τ} {name : String} {h : Handle}
variable {held : Held} {ids : List String}

/-- The rows that ids select are those of the items under their UUIDs. -/
theorem keeping_selects (U : V.UuidKeyed F I stored) {t : τ} (ht : I t)
    (hheld : V.held? t name = some held) (ids : List String) :
    (V.keeping held fun row => !V.selects held ids row) =
      V.without held (underUuids ids (V.items held)) := by
  refine congrArg (V.withRows held) (List.filter_congr fun row hrow => ?_)
  congr 1
  rw [Bool.eq_iff_iff, U.selects_iff ht hheld hrow, List.contains_iff_mem]
  constructor
  · intro hkey
    exact List.mem_map_of_mem (mem_underUuids.2 ⟨List.mem_map_of_mem hrow, hkey⟩)
  · intro hgone
    obtain ⟨item, hitem, hid⟩ := List.mem_map.1 hgone
    exact hid ▸ (mem_underUuids.1 hitem).2

/-- **A read by id finds what stands under the UUIDs.** -/
theorem getItems_underUuids (U : V.UuidKeyed F I stored) (ho : V.Opened F I s.server name h held)
    (hconn : s.connected = true) (ids : List String) :
    ∃ found, F.getItems name ids s = (.ok found, s) ∧
      ∀ item, item ∈ found ↔ item ∈ underUuids ids (V.items held) := by
  obtain ⟨found, hfetch, hnil, hmem⟩ := U.fetch ho ids
  exact ⟨found, getItems_of_fetch hconn ho.attach hfetch hnil, hmem⟩

/-- **A removal by id takes what stands under the UUIDs.** -/
theorem deleteItems_underUuids (U : V.UuidKeyed F I stored) (L : V.Lawful F I)
    (ho : V.Opened F I s.server name h held) (hconn : s.connected = true) (ids : List String)
    {filter : Option Filter} (hfilter : selective filter = none) :
    ∃ s', F.deleteItems name ids filter s = (.ok (), s') ∧
      V.Changed s.server s'.server (V.serverName name)
        (V.without held (underUuids ids (V.items held))) := by
  obtain ⟨s', hdel, -, hchanged⟩ := deleteItems_of_ids L ho hconn hfilter (U.erase ho ids)
  rw [keeping_selects U ho.inv ho.held] at hchanged
  exact ⟨s', hdel, hchanged⟩

/-- What an addition has left of the items of a collection: all but those under the
UUIDs of its own ids, and an item of each of these. -/
structure Placed (items old new : List Item) : Prop where
  others : ∀ item, item.id ∉ items.map (·.id) →
    (item ∈ new ↔ item ∈ old ∧ item ∉ sharing (items.map (·.id)) old)
  present : ∀ item ∈ items, ∃ shown ∈ new, shown.id = item.id

/-- **An addition puts its items in the place of what stands under their UUIDs.** -/
theorem addItems_underUuids (U : V.UuidKeyed F I stored) (L : V.Lawful F I) (hI : I s.server)
    (hheld : V.held? s.server (V.serverName name) = some held) {items : List Item}
    (hplain : ∀ item ∈ items, Metadata.Plain item.metadata) {r : Result Unit} {s' : Session τ}
    (hadd : F.addItems name items s = (r, s')) :
    (r ≠ .ok () → s'.server = s.server) ∧
      (r = .ok () → ∃ held', V.Changed s.server s'.server (V.serverName name) held' ∧
        Placed items (V.items held) (V.items held')) := by
  have hcases := addItems_cases L.reads name items s
  rw [hadd] at hcases
  rcases hcases with ⟨hserver, hnone⟩ | ⟨h, batch, -, hattach, hbare, -, hwrite, -⟩
  · refine ⟨fun _ => hserver, fun hok => ⟨held, ⟨?_, fun _ _ => by rw [hserver]⟩, ?_⟩⟩
    · rw [hserver]
      exact hheld
    · -- nothing was there to add, so nothing is shared with it
      rw [hnone hok]
      exact ⟨fun item _ => ⟨fun hitem => ⟨hitem, fun hshared =>
        List.not_mem_nil (mem_sharing.1 hshared).2.1⟩, And.left⟩, nofun⟩
  · have hplain' : ∀ item ∈ batch, Metadata.Plain item.metadata :=
      Item.forall_of_bare hbare hplain
    have hplaces := U.write ⟨hI, hattach, hheld⟩ batch
    rw [hwrite] at hplaces
    rcases hplaces with ⟨hfailed, hsame⟩ | ⟨rfl, held', hchanged, hmem⟩
    · exact ⟨fun _ => hsame, fun hok => absurd hok hfailed⟩
    · have hids : batch.map (·.id) = items.map (·.id) := Item.map_eq_of_bare (fun _ => rfl) hbare
      rw [hids] at hmem
      refine ⟨fun hne => absurd rfl hne, fun _ => ⟨held', hchanged, ?_, ?_⟩⟩
      · intro item hother
        rw [hmem, mem_sharing]
        constructor
        · rintro (⟨given, hgiven, rfl⟩ | ⟨hitem, hkey⟩)
          · -- an item of the batch has an id of the batch
            rw [U.id_stored (hplain' given hgiven), ← hids] at hother
            exact absurd (List.mem_map_of_mem hgiven) hother
          · exact ⟨hitem, fun hshared => hkey hshared.2.1⟩
        · rintro ⟨hitem, hunshared⟩
          exact .inr ⟨hitem, fun hkey => hunshared ⟨hitem, hkey, hother⟩⟩
      · intro item hitem
        obtain ⟨given, hgiven, hid, -⟩ := Item.exists_of_bare hbare.symm hitem
        exact ⟨stored given, (hmem _).2 (.inl ⟨given, hgiven, rfl⟩),
          (U.id_stored (hplain' given hgiven)).trans hid⟩

end Family

end VectorBridge
