import VectorBridge.Proofs.Batch.Updating
import VectorBridge.Proofs.Connection.Search
import VectorBridge.Proofs.Milvus.Rewriting
/-!
# Updates under integer keys

A batch of updates is mapped to keys like any other, and what was mapped gives way to the
keys that the ids stand under. But two ids that were mapped to one key have been refused by
then, although each has a key of its own. So whether an update goes through may depend on the
order of its batch.

Where nothing was refused the order makes no difference. Every item has a row, the row that is
written for it has its key, and so the rows are replaced where they stand, each by a row that
is told by its own update: what updates make of a row is a relation of the row and the set of
the updates, and there is one row that a row is related to.
-/

namespace VectorBridge

namespace Milvus

variable {name : String} {s : Stored} {w : Nat}
variable {f : String → Embedding} {c : Context} {updates us : List ItemUpdate}

/-! ## What updates make of rows -/

/-- The item that an update makes of a row. -/
def Stored.renewed (s : Stored) (c : Context) (f : String → Embedding) (u : ItemUpdate)
    (row : Row) : Item :=
  Batch.completed f (Batch.updated c u (itemOf s.schema row))

/-- What updates make of a row: the row of the item that the update of its id makes of it,
under the key that it has; a row of another id stays as it is. -/
structure Stored.Revises (s : Stored) (c : Context) (f : String → Embedding)
    (updates : List ItemUpdate) (row row' : Row) : Prop where
  updated : ∀ u ∈ updates, u.id = (itemOf s.schema row).id → ∃ key, s.schema.Maps u.id key ∧
    s.schema.key row = some (keyJson key.backend) ∧
      rowOf s.schema (s.renewed c f u row) key = .ok row'
  other : (∀ u ∈ updates, u.id ≠ (itemOf s.schema row).id) → row' = row

/-- Updates that can be asked for: of distinct ids that are stored, no more than a query may
ask for, with metadata that leaves the schema's fields and the reserved key alone and with
finite vectors of a width. -/
structure Stored.Updatable (s : Stored) (w : Nat) (updates : List ItemUpdate) : Prop where
  distinct : (updates.map (·.id)).Nodup
  stored : ∀ u ∈ updates, ∃ row ∈ s.rows, (itemOf s.schema row).id = u.id
  few : updates.length ≤ window
  plain : ∀ u ∈ updates, ∀ metadata, u.metadata = some metadata → Metadata.Plain metadata
  free : ∀ u ∈ updates, ∀ metadata, u.metadata = some metadata →
    ∀ key ∈ Keyed.keys metadata, s.schema.reserved.contains key = false
  vectors : ∀ u ∈ updates, ∀ v, u.embedding = some v → v.length = w ∧ v.Finite

/-- The width of a collection: the one that is resolved for it, the one that its schema
declares if it does, and the one of every vector that is stored. -/
structure HasWidth (t : Session Memory) (name : String) (s : Stored) (w : Nat) : Prop where
  resolved : ∃ d, (family.widthOf name t).1 = .ok d ∧ d.check w = .ok ()
  declared : ∀ n, s.schema.dimension = some n → n = w
  stored : ∀ row ∈ s.rows, ∃ v, (itemOf s.schema row).embedding = some v ∧ v.length = w ∧ v.Finite

/-- Where the schema declares the width that is resolved, that is the width. -/
theorem hasWidth_of_declared {t : Session Memory} (ht : (Connection.milvus t).Reached)
    (hheld : Keyed.get? name t.server.collections = some s)
    (hvec : s.schema.vectorField ≠ documentFieldName) (hw : s.schema.dimension = some w)
    (hresolved : ∃ d, (family.widthOf name t).1 = .ok d ∧ d.check w = .ok ()) :
    HasWidth t name s w where
  resolved := hresolved
  declared _ hn := Option.some.inj (hn.symm.trans hw)
  stored := (complete_of_reached ht t rfl name s hheld).2.wide hvec w hw

/-- No field of the schema is left in the metadata that is read. -/
theorem free_itemOf (S : Schema) (row : Row) :
    ∀ key ∈ Keyed.keys (itemOf S row).metadata, S.reserved.contains key = false := by
  intro key hkey
  obtain ⟨e, he, rfl⟩ := List.mem_map.1 hkey
  simp only [itemOf, IdKind.recover_snd, Keyed.erase_eq_filter, List.filter_filter,
    List.mem_filter] at he
  have hout := he.2
  simp only [Bool.and_eq_true, decide_eq_true_eq] at hout
  simp only [Schema.reserved, List.contains_eq_mem, List.mem_cons, List.not_mem_nil, or_false,
    decide_eq_false_iff_not, not_or]
  tauto

/-- What an update makes of a row can be stored, and waits for no vector where there is no
provider. -/
theorem takes_renewed (hwidths : ∀ row ∈ s.rows, ∃ v, (itemOf s.schema row).embedding = some v ∧
      v.length = w ∧ v.Finite)
    (hfits : c.embedder.isSome = true → ∀ text, (f text).length = w ∧ (f text).Finite)
    (U : s.Updatable w updates) {u : ItemUpdate} (hu : u ∈ updates) {row : Row}
    (hrow : row ∈ s.rows) (hid : (itemOf s.schema row).id = u.id) :
    (s.renewed c f u row).id = u.id ∧ s.schema.Takes w (s.renewed c f u row) ∧
      (c.embedder = none →
        Batch.pending (Batch.updated c u (itemOf s.schema row)) = false) := by
  have M := Batch.merges_updated c (u := u) hid
  rw [Stored.renewed]
  generalize Batch.updated c u (itemOf s.schema row) = merged at M
  have hbare : (Batch.completed f merged).id = merged.id ∧
      (Batch.completed f merged).metadata = merged.metadata := by
    rw [Batch.completed]
    split <;> exact ⟨rfl, rfl⟩
  -- a vector of an older document is dropped only where another one is computed
  have hvector : (∃ v, merged.embedding = some v ∧ v.length = w ∧ v.Finite) ∨
      c.embedder.isSome = true ∧ Batch.pending merged = true := by
    cases hu' : u.embedding with
    | some v => exact .inl ⟨v, M.supplied v hu', U.vectors u hu v hu'⟩
    | none =>
      obtain ⟨v, hv, hlength, hfinite⟩ := hwidths row hrow
      by_cases hstale : u.leavesStale (itemOf s.schema row) = true ∧ c.embedder.isSome = true
      · refine .inr ⟨hstale.2, ?_⟩
        have hdocument : u.document.isSome = true := by
          have hleaves := hstale.1
          rw [ItemUpdate.leavesStale, Bool.and_eq_true, Bool.and_eq_true] at hleaves
          exact hleaves.1.2
        obtain ⟨text, htext⟩ := Option.isSome_iff_exists.1 hdocument
        rw [Batch.pending, M.dropped hstale.1 hstale.2, M.document, htext]
        rfl
      · refine .inl ⟨v, ?_, hlength, hfinite⟩
        rw [M.kept hu', hv]
        by_cases hprovider : c.embedder.isSome = true
        · exact .inl (Bool.eq_false_iff.2 fun hleaves => hstale ⟨hleaves, hprovider⟩)
        · exact .inr (by simpa using hprovider)
  refine ⟨hbare.1.trans M.id, ⟨?_, ?_, ?_⟩, fun hnone => ?_⟩
  · rw [hbare.2, M.metadata]
    cases hmeta : u.metadata with
    | none => exact plain_itemOf s.schema row
    | some metadata => exact U.plain u hu metadata hmeta
  · rw [hbare.2, M.metadata]
    cases hmeta : u.metadata with
    | none => exact free_itemOf s.schema row
    | some metadata => exact U.free u hu metadata hmeta
  · rcases hvector with ⟨v, hv, hfit⟩ | ⟨hprovider, hwaits⟩
    · have hready : Batch.pending merged = false := by rw [Batch.pending, hv]; rfl
      rw [Batch.completed, hready, if_neg Bool.false_ne_true]
      exact ⟨v, hv, hfit⟩
    · rw [Batch.completed, if_pos hwaits]
      exact ⟨_, rfl, hfits hprovider _⟩
  · rcases hvector with ⟨v, hv, -⟩ | ⟨hprovider, -⟩
    · rw [Batch.pending, hv]
      rfl
    · rw [hnone] at hprovider
      cases hprovider

/-! ## Keys of the batch -/

/-- A batch that has, for each update in their order, the item that it makes of a row. -/
def Stored.Renews (s : Stored) (c : Context) (f : String → Embedding) (us : List ItemUpdate)
    (batch : List Item) : Prop :=
  List.Forall₂ (fun u item => ∃ row ∈ s.rows, (itemOf s.schema row).id = u.id ∧
    item = s.renewed c f u row) us batch

/-! ## Rows in place -/

theorem id_renewed {u : ItemUpdate} {row : Row} (hid : (itemOf s.schema row).id = u.id) :
    (s.renewed c f u row).id = u.id := by
  rw [Stored.renewed, Batch.completed]
  split <;> exact (Batch.merges_updated c hid).id

/-- **A batch of updated items is written in place**: every row is revised where it stands. -/
theorem forall₂_revises {batch : List Item} {keys : List MappedId} {rows : List Row}
    (B : s.Rewrites w batch) (h : s.Sound) (hdistinct : (us.map (·.id)).Nodup)
    (hrenews : s.Renews c f us batch) (hkeys : List.Forall₂ s.Admits batch keys)
    (hmade : rowsOf s.schema batch keys = .ok rows) :
    List.Forall₂ (s.Revises c f us) s.rows (s.written rows).rows := by
  have hkeyed := (rowsOf_eq_ok h hkeys B.plain hmade).1
  have hnodup := B.nodup_keys h hkeys hmade
  have hsame : (s.written rows).rows.map s.schema.key = s.rows.map s.schema.key := by
    refine map_key_written h.keys fun row hrow => ⟨hkeyed row hrow, ?_⟩
    obtain ⟨old, hold, -, hkey⟩ := B.exists_stored h hkeys hmade row hrow
    exact hkey ▸ List.mem_map_of_mem hold
  have hplaces : List.Forall₂ (fun row row' => s.schema.key row = s.schema.key row') s.rows
      (s.written rows).rows := by
    have hkeys : List.Forall₂ (· = ·) (s.rows.map s.schema.key)
        ((s.written rows).rows.map s.schema.key) := by
      rw [hsame]
      exact List.forall₂_same.2 fun _ _ => rfl
    exact List.forall₂_map_right_iff.1 (List.forall₂_map_left_iff.1 hkeys)
  have hmem := (List.forall₂_and_left _ _).2 ⟨fun row (hrow : row ∈ s.rows) => hrow, hplaces⟩
  have hboth := (List.forall₂_and_left _ _).2
    ⟨fun row' (hrow' : row' ∈ (s.written rows).rows) => hrow', hmem.flip⟩
  refine hboth.flip.imp ?_
  rintro row row' ⟨hrow', hrow, hkey⟩
  have hmakes := forall₂_rowOf hkeys hmade
  rcases (mem_written h hkeyed hnodup).1 hrow' with hnew | ⟨hold, hnot⟩
  · -- a new row is that of an update of the row that has its key
    obtain ⟨item, hitem, key, hadmits, hof⟩ := exists_of_forall₂ hmakes.flip hnew
    obtain ⟨u, hu, own, hown, hid, rfl⟩ := exists_of_forall₂ hrenews.flip hitem
    have hstored := hadmits.2 own hown (hid.trans (id_renewed hid).symm)
    have hwritten := (get?_rowOf h.apart (B.plain _ hitem) hof).1
    obtain rfl : own = row := List.inj_on_of_nodup_map h.distinct hown hrow
      (hstored.trans (hwritten.symm.trans hkey.symm))
    refine ⟨fun u' hu' hid' => ?_, fun hnone => absurd hid.symm (hnone u hu)⟩
    obtain rfl : u' = u := List.inj_on_of_nodup_map hdistinct hu' hu (hid'.trans hid)
    have hmaps := hadmits.1
    rw [id_renewed hid] at hmaps
    exact ⟨key, hmaps, hstored, hof⟩
  · -- an old row is one that no update names
    obtain rfl := List.inj_on_of_nodup_map h.distinct hold hrow hkey.symm
    refine ⟨fun u hu hid => absurd ?_ hnot, fun _ => rfl⟩
    obtain ⟨item, hitem, own, hown, hid', rfl⟩ := exists_of_forall₂ hrenews hu
    obtain rfl := h.eq_of_id hown hold (hid'.trans hid)
    obtain ⟨new, hnew, key, hadmits, hof⟩ := exists_of_forall₂ hmakes hitem
    have hwritten := (get?_rowOf h.apart (B.plain _ hitem) hof).1
    have hstored := hadmits.2 own hown (hid'.trans (id_renewed hid').symm)
    exact List.mem_map.2 ⟨new, hnew, hwritten.trans hstored.symm⟩

/-! ## Revised rows -/

/-- What updates make of a row is told by the row. -/
theorem Stored.Revises.unique {row row₁ row₂ : Row} (h₁ : s.Revises c f updates row row₁)
    (h₂ : s.Revises c f updates row row₂) : row₁ = row₂ := by
  by_cases hnamed : ∃ u ∈ updates, u.id = (itemOf s.schema row).id
  · obtain ⟨u, hu, hid⟩ := hnamed
    obtain ⟨key₁, hmaps₁, hkey₁, hof₁⟩ := h₁.updated u hu hid
    obtain ⟨key₂, hmaps₂, hkey₂, hof₂⟩ := h₂.updated u hu hid
    obtain rfl := hmaps₁.ext hmaps₂ (Option.some.inj (hkey₁.symm.trans hkey₂))
    exact Except.ok.inj (hof₁.symm.trans hof₂)
  · have hother : ∀ u ∈ updates, u.id ≠ (itemOf s.schema row).id := fun u hu hid =>
      hnamed ⟨u, hu, hid⟩
    rw [h₁.other hother, h₂.other hother]

/-- The order of the updates makes no difference. -/
theorem Stored.Revises.perm {row row' : Row} (h : s.Revises c f us row row')
    (hperm : us.Perm updates) : s.Revises c f updates row row' where
  updated u hu := h.updated u (hperm.mem_iff.2 hu)
  other hother := h.other fun u hu => hother u (hperm.mem_iff.1 hu)

theorem Stored.Updatable.perm (U : s.Updatable w updates) (hperm : us.Perm updates) :
    s.Updatable w us where
  distinct := (hperm.map (·.id)).nodup_iff.2 U.distinct
  stored u hu := U.stored u (hperm.mem_iff.1 hu)
  few := hperm.length_eq ▸ U.few
  plain u hu := U.plain u (hperm.mem_iff.1 hu)
  free u hu := U.free u (hperm.mem_iff.1 hu)
  vectors u hu := U.vectors u (hperm.mem_iff.1 hu)

/-- Every stored row can be revised, and keeps its key and its id. -/
theorem exists_revises (h : s.Sound) (hkind : s.schema.idKind = .integer)
    (hwidths : ∀ row ∈ s.rows, ∃ v, (itemOf s.schema row).embedding = some v ∧
      v.length = w ∧ v.Finite)
    (hfits : c.embedder.isSome = true → ∀ text, (f text).length = w ∧ (f text).Finite)
    (U : s.Updatable w updates) {row : Row} (hrow : row ∈ s.rows) :
    ∃ row', s.Revises c f updates row row' ∧ s.schema.key row' = s.schema.key row ∧
      (itemOf s.schema row').id = (itemOf s.schema row).id := by
  by_cases hnamed : ∃ u ∈ updates, u.id = (itemOf s.schema row).id
  · obtain ⟨u, hu, hid⟩ := hnamed
    obtain ⟨hsame, htakes, -⟩ := takes_renewed hwidths hfits U hu hrow hid.symm
    obtain ⟨key, hmaps, hkey⟩ := (h.keys row hrow).exists_maps h.apart hkind
    obtain ⟨row', hof⟩ := exists_rowOf key htakes.free
    refine ⟨row', ⟨fun u' hu' hid' => ?_, fun hnone => absurd hid (hnone u hu)⟩, ?_, ?_⟩
    · obtain rfl := List.inj_on_of_nodup_map U.distinct hu' hu (hid'.trans hid.symm)
      exact ⟨key, hid' ▸ hmaps, hkey, hof⟩
    · exact (get?_rowOf h.apart htakes.plain hof).1.trans hkey.symm
    · have hkeyed := keys_rowOf h.apart htakes.plain (hsame.trans hid ▸ hmaps) hof
      exact hkeyed.2.trans (hsame.trans hid)
  · refine ⟨row, ⟨fun u hu hid => absurd ⟨u, hu, hid⟩ hnamed, fun _ => rfl⟩, rfl, rfl⟩

/-! ## Updates -/

/-- A session with a collection of integer keys, which are apart, and of vectors of a width. -/
structure HoldsApart (t : Session Memory) (name : String) (s : Stored) (w : Nat) : Prop where
  reached : (Connection.milvus t).Reached
  connected : t.connected = true
  held : Keyed.get? name t.server.collections = some s
  kind : s.schema.idKind = .integer
  apart : s.KeysApart
  width : HasWidth t name s w

section Session

variable {t : Session Memory}

theorem HoldsApart.sound (H : HoldsApart t name s w) : s.Sound := H.reached.sound name s H.held

theorem HoldsApart.attach (H : HoldsApart t name s w) :
    family.attach name t.server = (.ok ⟨name, s.schema⟩, t.server) := by
  obtain ⟨o, hattach⟩ := lawful.attach_of_held H.held
  have hsound : t.server.Sound := H.reached.sound
  obtain rfl := opened_eq ⟨hsound, hattach, H.held⟩
  exact hattach

/-- Updates of what is stored are merged with it. -/
theorem HoldsApart.exists_merged (H : HoldsApart t name s w) (U : s.Updatable w us) :
    ∃ found merged, family.getItems name (us.map (·.id)) t = (.ok found, t) ∧
      Batch.mergeUpdates t.context found us = .ok merged ∧
      List.Forall₂ (fun u item => ∃ row ∈ s.rows, (itemOf s.schema row).id = u.id ∧
        item = Batch.updated t.context u (itemOf s.schema row)) us merged ∧
      us.map (·.id) = merged.map (·.id) := by
  have hstored : ∀ id ∈ us.map (·.id), ∃ row ∈ s.rows, (itemOf s.schema row).id = id :=
    List.forall_mem_map.2 U.stored
  have hfew : (us.map (·.id)).length ≤ window := by
    rw [List.length_map]
    exact U.few
  have hopened : storage.Opened family Memory.Sound t.server name ⟨name, s.schema⟩ s :=
    ⟨H.reached.sound, H.attach, H.held⟩
  obtain ⟨found, hfetch, hnil, -, hperm⟩ := fetch_apply H.sound H.kind hopened hfew
  have hfound := hperm (takenFor_of_keysApart H.sound H.kind H.apart hstored)
  -- what is found are the items of the rows that the updates name
  have hmem : ∀ item, item ∈ found ↔ ∃ row ∈ s.rows, item = itemOf s.schema row ∧
      item.id ∈ us.map (·.id) := by
    intro item
    rw [hfound.mem_iff, Storage.ofIds, List.mem_filter, List.contains_iff_mem, Storage.items,
      List.mem_map]
    constructor
    · rintro ⟨⟨row, hrow, rfl⟩, hid⟩
      exact ⟨row, hrow, rfl, hid⟩
    · rintro ⟨row, hrow, rfl, hid⟩
      exact ⟨⟨row, hrow, rfl⟩, hid⟩
  have hthere : ∀ u ∈ us, u.id ∈ found.map (·.id) := by
    intro u hu
    obtain ⟨row, hrow, hid⟩ := U.stored u hu
    exact List.mem_map.2 ⟨itemOf s.schema row,
      (hmem _).2 ⟨row, hrow, rfl, hid ▸ List.mem_map_of_mem hu⟩, hid⟩
  obtain ⟨merged, hmerge, hmerged⟩ := Batch.exists_applyAll t.context hthere
  refine ⟨found, merged, Family.getItems_of_fetch H.connected H.attach hfetch hnil, ?_, ?_⟩
  · rw [Batch.mergeUpdates, Batch.repeated?_eq_none.2 ⟨U.distinct, fun _ _ => List.not_mem_nil⟩]
    exact hmerge
  · refine ⟨hmerged.imp ?_, map_eq_of_forall₂ hmerged ?_⟩
    all_goals rintro u item ⟨old, hold, hid, rfl⟩
    · obtain ⟨row, hrow, rfl, -⟩ := (hmem old).1 hold
      exact ⟨row, hrow, hid, rfl⟩
    · exact (Batch.merges_updated t.context hid).id.symm

/-- An update of a batch is an addition of what is merged. -/
theorem updateItems_eq_addItems {found merged : List Item} (hconn : t.connected = true)
    (hus : us ≠ []) (hget : family.getItems name (us.map (·.id)) t = (.ok found, t))
    (hmerge : Batch.mergeUpdates t.context found us = .ok merged) :
    family.updateItems name us t = family.addItems name merged t := by
  rw [Family.updateItems, Session.ensureConnected_bind hconn,
    if_neg (fun h => hus (List.isEmpty_iff.1 h)), Step.bind_of_ok hget,
    Step.bind_of_ok (Step.get_apply t)]
  exact Action.ofResult_bind_of_ok hmerge _

/-- A batch of updates that goes through has ids that were mapped apart. -/
theorem HoldsApart.clear_of_ok (H : HoldsApart t name s w) (U : s.Updatable w us) {t' : Session Memory}
    (hrun : family.updateItems name us t = (.ok (), t')) : IdKind.KeysClear (us.map (·.id)) := by
  by_cases hus : us = []
  · subst hus
    exact List.nodup_nil
  obtain ⟨found, merged, hget, hmerge, -, hmergedIds⟩ := H.exists_merged U
  rw [updateItems_eq_addItems H.connected hus hget hmerge] at hrun
  have hitems : merged.isEmpty = false := by
    rw [List.isEmpty_eq_false_iff]
    rintro rfl
    exact hus (List.map_eq_nil_iff.1 hmergedIds)
  obtain ⟨o, batch, log, d, s₁, width, t₁, A, rfl⟩ := Family.exists_addition readsOnly hitems hrun
  obtain rfl : o = ⟨name, s.schema⟩ := by
    have heq := congrArg Prod.fst (A.attach.symm.trans H.attach)
    exact Except.ok.inj heq
  have hwrite := A.written
  rw [A.eq_with readsOnly] at hwrite
  obtain ⟨keys, rows, hassign, -, -⟩ := write_eq_ok (c := ⟨name, s.schema⟩) H.held rfl hwrite
  obtain ⟨-, hassigns⟩ := (assignKeys_integer_iff (c := ⟨name, s.schema⟩) H.held rfl H.kind).1
    hassign
  obtain ⟨mapped, hmapped, -⟩ := hassigns.mapped
  have hclear := IdKind.exists_mapBatch_iff.1 ⟨mapped, hmapped⟩
  have hids : batch.map (·.id) = us.map (·.id) := by
    rw [Item.map_eq_of_bare (fun _ => rfl) A.accepts.bare]
    exact hmergedIds.symm
  rwa [hids] at hclear

/-- An addition goes through when its batch is completed to one that can be stored, and the
server takes that. -/
theorem HoldsApart.exists_addItems (H : HoldsApart t name s w) {items batch : List Item}
    {log : List EmbeddingRequest} {m : Memory} (hitems : items.isEmpty = false)
    (hids : Batch.checkIds items = .ok ())
    (hembed : Batch.embedMissing t.context name none items t.requests = (.ok batch, log))
    (htakes : ∀ item ∈ batch, s.schema.Takes w item)
    (hwrite : family.write ⟨name, s.schema⟩ batch t.server = (.ok (), m)) :
    ∃ t', family.addItems name items t = (.ok (), t') ∧ t'.server = m := by
  obtain ⟨d, hwidth, hd⟩ := H.width.resolved
  have hinspect : family.inspect name t.server = (.ok (⟨name, s.schema⟩,
      ⟨ranking s.schema.metric, s.schema.metric, s.schema.dimension⟩), t.server) :=
    Step.bind_of_ok H.attach _
  rw [Family.widthOf, Step.bind_of_ok (Session.call_of_ok hinspect)] at hwidth
  -- the requests made so far do not matter to the width
  have hresolve : (family.resolve ⟨name, s.schema⟩ { t with requests := log }).1 = .ok d := hwidth
  have hserver : (family.resolve ⟨name, s.schema⟩ { t with requests := log }).2.server = t.server :=
    Session.resolveWidth_server (readsOnly.declaredWidth _) (readsOnly.probedWidth _) name
      { t with requests := log }
  have hvectors : (family (τ := Memory)).checkVectors batch = .ok () := by
    have hfind : batch.find? (fun item => item.embedding.isNone) = none := by
      refine List.find?_eq_none.2 fun item hitem => ?_
      obtain ⟨v, hv, -⟩ := (htakes item hitem).vector
      rw [hv]
      exact Bool.false_ne_true
    rw [Family.checkVectors, hfind]
    rfl
  have hlengths : ∀ v ∈ batch.filterMap (·.embedding), v.length = w := by
    intro v hv
    obtain ⟨item, hitem, hread⟩ := List.mem_filterMap.1 hv
    obtain ⟨v', hv', hlength, -⟩ := (htakes item hitem).vector
    exact Option.some.inj (hread.symm.trans hv') ▸ hlength
  obtain ⟨width, hfits⟩ := Batch.exists_checkDimensions hd hlengths
  have A : family.Addition name items t ⟨name, s.schema⟩ batch log d
      (family.resolve ⟨name, s.schema⟩ { t with requests := log }).2 width m := by
    refine ⟨H.connected, hids, ?_, H.attach, hembed, hvectors, Prod.ext hresolve rfl, hfits, ?_⟩
    · exact Filter.firstError_eq_ok_iff.2 (List.forall_mem_map.2 fun _ _ => rfl)
    · rw [hserver]
      exact hwrite
  exact ⟨_, A.run hitems, rfl⟩

/-- **A batch of updates whose ids are mapped apart goes through**, and revises every row where
it stands. -/
theorem HoldsApart.exists_updateItems (H : HoldsApart t name s w)
    (hanswers : Batch.AnswersBy t.context name f)
    (hfits : t.context.embedder.isSome = true → ∀ text, (f text).length = w ∧ (f text).Finite)
    (U : s.Updatable w us) (hclear : IdKind.KeysClear (us.map (·.id))) :
    ∃ rows t', family.updateItems name us t = (.ok (), t') ∧
      storage.Changed t.server t'.server name (storage.withRows s rows) ∧
      List.Forall₂ (s.Revises t.context f us) s.rows rows := by
  by_cases hus : us = []
  · subst hus
    refine ⟨s.rows, t, ?_, ⟨H.held, fun _ _ => rfl⟩, ?_⟩
    · rw [Family.updateItems, Session.ensureConnected_bind H.connected]
      rfl
    · exact List.forall₂_same.2 fun row _ => ⟨nofun, fun _ => rfl⟩
  obtain ⟨found, merged, hget, hmerge, hmerged, hmergedIds⟩ := H.exists_merged U
  have htakes : ∀ {u}, u ∈ us → ∀ {row}, row ∈ s.rows → (itemOf s.schema row).id = u.id → _ :=
    fun hu _ hrow hid => takes_renewed H.width.stored hfits U hu hrow hid
  -- the batch that is written has an item for each update
  have hready : t.context.embedder = none → ∀ item ∈ merged, Batch.pending item = false := by
    intro hnone item hitem
    obtain ⟨u, hu, row, hrow, hid, rfl⟩ := exists_of_forall₂ hmerged.flip hitem
    exact (htakes hu hrow hid).2.2 hnone
  obtain ⟨log, hembed⟩ := Batch.embedMissing_of_answersBy hanswers none hready t.requests
  have hrenews : s.Renews t.context f us (merged.map (Batch.completed f)) := by
    refine List.forall₂_map_right_iff.2 (hmerged.imp ?_)
    rintro u item ⟨row, hrow, hid, rfl⟩
    exact ⟨row, hrow, hid, rfl⟩
  have hne : merged ≠ [] := by
    rintro rfl
    exact hus (List.map_eq_nil_iff.1 hmergedIds)
  generalize merged.map (Batch.completed f) = batch at hembed hrenews
  have hids : us.map (·.id) = batch.map (·.id) := by
    refine map_eq_of_forall₂ hrenews ?_
    rintro u item ⟨row, -, hid, rfl⟩
    exact (id_renewed hid).symm
  have B : s.Rewrites w batch := by
    refine ⟨hids ▸ U.distinct, fun item hitem => ?_, ?_, fun item hitem => ?_⟩
    · obtain ⟨u, -, row, hrow, hid, rfl⟩ := exists_of_forall₂ hrenews.flip hitem
      exact ⟨row, hrow, hid.trans (id_renewed hid).symm⟩
    · exact hrenews.length_eq ▸ U.few
    · obtain ⟨u, hu, row, hrow, hid, rfl⟩ := exists_of_forall₂ hrenews.flip hitem
      exact (htakes hu hrow hid).2.1
  obtain ⟨keys, rows, hkeys, hmade, hwrite⟩ :=
    B.exists_write H.sound H.kind (hids ▸ hclear) H.width.declared H.held
  have hchecked : Batch.checkIds merged = .ok () := by
    refine Batch.checkIdsAfter_eq_ok_iff.2 ⟨hmergedIds ▸ U.distinct, fun item hitem => ?_⟩
    obtain ⟨u, -, row, hrow, hid, rfl⟩ := exists_of_forall₂ hmerged.flip hitem
    refine ⟨?_, List.not_mem_nil⟩
    rw [(Batch.merges_updated t.context hid).id, ← hid]
    exact ((complete_of_reached H.reached t rfl name s H.held).2).named row hrow
  obtain ⟨t', hadd, hserver⟩ := H.exists_addItems (merged.isEmpty_eq_false_iff.2 hne) hchecked hembed
    B.takes hwrite
  refine ⟨_, t', ?_, ?_, forall₂_revises B H.sound U.distinct hrenews hkeys hmade⟩
  · rw [updateItems_eq_addItems H.connected hus hget hmerge, hadd]
  · rw [hserver]
    exact changed_insert _ _ _

/-- **Updates of items under integer keys are made in place, in whatever order they are, or
not at all.** Take updates of distinct stored ids of a collection with integer keys that are
apart, with vectors of its width. There are rows, with the keys and the ids of the stored
ones, that the updates revise these to. In any order of the updates: where no two ids are
mapped to one key, the number at the end of each or else its place, the batch goes through
and leaves these rows; where two are, it is refused, and nothing on the server changes. -/
theorem updates_in_place (H : HoldsApart t name s w) (hanswers : Batch.AnswersBy t.context name f)
    (hfits : t.context.embedder.isSome = true → ∀ text, (f text).length = w ∧ (f text).Finite)
    (U : s.Updatable w updates) :
    ∃ rows, rows.map s.schema.key = s.rows.map s.schema.key ∧
      rows.map (fun row => (itemOf s.schema row).id) =
        s.rows.map (fun row => (itemOf s.schema row).id) ∧
      List.Forall₂ (s.Revises t.context f updates) s.rows rows ∧
      ∀ us, us.Perm updates →
        (IdKind.KeysClear (us.map (·.id)) → ∃ t', family.updateItems name us t = (.ok (), t') ∧
          storage.Changed t.server t'.server name (storage.withRows s rows)) ∧
        (¬ IdKind.KeysClear (us.map (·.id)) → ∃ e t',
          family.updateItems name us t = (.error e, t') ∧ t'.server = t.server) := by
  have hrevised : ∀ row ∈ s.rows, ∃ row', s.Revises t.context f updates row row' ∧
      s.schema.key row' = s.schema.key row ∧
      (itemOf s.schema row').id = (itemOf s.schema row).id :=
    fun row hrow => exists_revises H.sound H.kind H.width.stored hfits U hrow
  obtain ⟨rows, hrows⟩ := exists_forall₂ hrevised
  have hkeys : s.rows.map s.schema.key = rows.map s.schema.key :=
    map_eq_of_forall₂ hrows fun h => h.2.1.symm
  have hids : s.rows.map (fun row => (itemOf s.schema row).id) =
      rows.map (fun row => (itemOf s.schema row).id) :=
    map_eq_of_forall₂ hrows fun h => h.2.2.symm
  have hall : List.Forall₂ (s.Revises t.context f updates) s.rows rows :=
    hrows.imp fun _ _ h => h.1
  refine ⟨rows, hkeys.symm, hids.symm, hall, fun us hperm => ⟨fun hclear => ?_, fun hclash => ?_⟩⟩
  · obtain ⟨rows', t', hrun, hchanged, hall'⟩ :=
      H.exists_updateItems hanswers hfits (U.perm hperm) hclear
    obtain rfl : rows' = rows :=
      eq_of_forall₂ hall' hall fun _ _ _ h h' => (h.perm hperm).unique h'
    exact ⟨t', hrun, hchanged⟩
  · rcases hrun : family.updateItems name us t with ⟨e | _, t'⟩
    · exact ⟨e, t', rfl, atomic.updateItems readsOnly name us t t' e hrun⟩
    · exact absurd (H.clear_of_ok (U.perm hperm) hrun) hclash

end Session

/-! ## Updates of a name and of a name with a number -/

/-- New documents for items of some ids. -/
def rewording (ids : List String) : List ItemUpdate := ids.map fun id => ⟨id, some "new", none, none⟩

theorem updatable_rewording {ids : List String} (hdistinct : ids.Nodup)
    (hstored : ∀ id ∈ ids, id ∈ (storage.items s).map (·.id)) (hfew : ids.length ≤ window) :
    s.Updatable w (rewording ids) := by
  have hids : (rewording ids).map (·.id) = ids := by
    rw [rewording, List.map_map]
    exact List.map_id ids
  have hbare : ∀ u ∈ rewording ids, u.metadata = none ∧ u.embedding = none := by
    intro u hu
    obtain ⟨id, -, rfl⟩ := List.mem_map.1 hu
    exact ⟨rfl, rfl⟩
  refine ⟨hids.symm ▸ hdistinct, fun u hu => ?_, ?_, fun u hu metadata h => ?_,
    fun u hu metadata h => ?_, fun u hu v h => ?_⟩
  · have hid : u.id ∈ ids := hids ▸ List.mem_map_of_mem hu
    obtain ⟨item, hitem, heq⟩ := List.mem_map.1 (hstored u.id hid)
    obtain ⟨row, hrow, rfl⟩ := List.mem_map.1 hitem
    exact ⟨row, hrow, heq⟩
  · rw [rewording, List.length_map]
    exact hfew
  · rw [(hbare u hu).1] at h
    cases h
  · rw [(hbare u hu).1] at h
    cases h
  · rw [(hbare u hu).2] at h
    cases h

/-- Of two items the one whose name has no number is stored under its place, and the other
under its number. -/
theorem holdsApart_holding : ∃ s, HoldsApart (holding ["alpha", "doc_1"]) "docs" s 1 ∧
    (storage.items s).map (·.id) = ["alpha", "doc_1"] := by
  have hrun : (Keyed.get? "docs" (holding ["alpha", "doc_1"]).server.collections).map
      (fun s => (s.schema.idKind, s.schema.vectorField, s.schema.dimension,
        s.rows.map (keyOf s.schema), (storage.items s).map (·.id))) =
      some (.integer, vectorFieldName, some 1, [.integer 0, .integer 1], ["alpha", "doc_1"]) := by
    decide +kernel
  obtain ⟨s, hheld, hfacts⟩ := Option.map_eq_some_iff.1 hrun
  simp only [Prod.mk.injEq] at hfacts
  obtain ⟨hkind, hvec, hdim, hkeys, hids⟩ := hfacts
  have hreached := reached_holding ["alpha", "doc_1"]
  have hapart : s.KeysApart := by
    refine keysApart_of_lt fun row hrow k hk => ?_
    have hmem := List.mem_map_of_mem (f := keyOf s.schema) hrow
    rw [hkeys, hk] at hmem
    simp only [List.mem_cons, BackendId.integer.injEq, List.not_mem_nil, or_false] at hmem
    omega
  have hwidth : (family.widthOf "docs" (holding ["alpha", "doc_1"])).1 = .ok (.known 1) :=
    Connection.ok_of_toOption (by decide +kernel)
  have hfield : s.schema.vectorField ≠ documentFieldName := by
    rw [hvec]
    decide
  exact ⟨s, ⟨hreached, by decide +kernel, hheld, hkind, hapart,
    hasWidth_of_declared hreached hheld hfield hdim ⟨_, hwidth, rfl⟩⟩, hids⟩

/-- Named first, the name is mapped to the place before the number, and the batch goes
through; named last, it is mapped to the number itself. -/
theorem updates_in_place_of_names :
    ∃ (s : Stored) (rows : List Row) (t' : Session Memory),
      HoldsApart (holding ["alpha", "doc_1"]) "docs" s 1 ∧
      s.Updatable 1 (rewording ["alpha", "doc_1"]) ∧
      rows.map s.schema.key = s.rows.map s.schema.key ∧
      rows.map (fun row => (itemOf s.schema row).id) =
        s.rows.map (fun row => (itemOf s.schema row).id) ∧
      List.Forall₂ (s.Revises (holding ["alpha", "doc_1"]).context (fun _ => [])
        (rewording ["alpha", "doc_1"])) s.rows rows ∧
      family.updateItems "docs" (rewording ["alpha", "doc_1"]) (holding ["alpha", "doc_1"]) =
        (.ok (), t') ∧
      storage.Changed (holding ["alpha", "doc_1"]).server t'.server "docs"
        (storage.withRows s rows) ∧
      ∃ e t'', family.updateItems "docs" (rewording ["doc_1", "alpha"])
          (holding ["alpha", "doc_1"]) = (.error e, t'') ∧
        t''.server = (holding ["alpha", "doc_1"]).server := by
  obtain ⟨s, H, hids⟩ := holdsApart_holding
  have hnone : (holding ["alpha", "doc_1"]).context.embedder = none :=
    Option.isNone_iff_eq_none.1 (by decide +kernel)
  have U : s.Updatable 1 (rewording ["alpha", "doc_1"]) :=
    updatable_rewording (by decide) (fun id hid => hids ▸ hid) (by decide)
  obtain ⟨rows, hkeys, hsame, hrevised, horders⟩ := updates_in_place (f := fun _ => []) H
    (fun provider hprovider => by rw [hnone] at hprovider; cases hprovider)
    (fun hprovider => by rw [hnone] at hprovider; cases hprovider) U
  obtain ⟨t', hrun, hchanged⟩ := (horders _ (.refl _)).1 (by decide +kernel)
  exact ⟨s, rows, t', H, U, hkeys, hsame, hrevised, hrun, hchanged,
    (horders (rewording ["doc_1", "alpha"]) (.swap _ _ _)).2 (by decide +kernel)⟩

/-- Two stored items have keys of their own, and are updated in one order and refused in the
other. -/
theorem updates_refused_in_one_order :
    ∃ (s : Stored) (t₁ t₂ : Session Memory), HoldsApart (holding ["alpha", "doc_1"]) "docs" s 1 ∧
      (storage.items s).map (·.id) = ["alpha", "doc_1"] ∧
      family.updateItems "docs" (rewording ["alpha", "doc_1"]) (holding ["alpha", "doc_1"]) =
        (.ok (), t₁) ∧
      family.updateItems "docs" (rewording ["doc_1", "alpha"]) (holding ["alpha", "doc_1"]) =
        (.error (.invalidInput "ids 'doc_1' and 'alpha' map to the same backend id 1"), t₂) := by
  obtain ⟨s, H, hids⟩ := holdsApart_holding
  have hdone : (family.updateItems "docs" (rewording ["alpha", "doc_1"])
      (holding ["alpha", "doc_1"])).1 = .ok () := by decide +kernel
  have hrefused : (family.updateItems "docs" (rewording ["doc_1", "alpha"])
      (holding ["alpha", "doc_1"])).1 =
        .error (.invalidInput "ids 'doc_1' and 'alpha' map to the same backend id 1") := by
    decide +kernel
  rcases hfirst : family.updateItems "docs" (rewording ["alpha", "doc_1"])
    (holding ["alpha", "doc_1"]) with ⟨r₁, t₁⟩
  rcases hsecond : family.updateItems "docs" (rewording ["doc_1", "alpha"])
    (holding ["alpha", "doc_1"]) with ⟨r₂, t₂⟩
  rw [hfirst] at hdone
  rw [hsecond] at hrefused
  exact ⟨s, t₁, t₂, H, hids, congrArg (·, t₁) hdone, congrArg (·, t₂) hrefused⟩

end Milvus

end VectorBridge
