import VectorBridge.Proofs.Connection.Atomic
import VectorBridge.Proofs.Milvus.Again
/-!
# Rewriting what is stored

A batch is mapped to integer keys first, each id to the number at its end, or else to its
place in the batch, and two ids that are mapped to one key are refused. Only then are the
keys looked up that the ids stand under, and these replace the others. So a batch of items
that are all stored is written when it could be mapped: its ids have keys of their own, no
key is another's, and every row that is written for it takes the place of the one that it is
read as.

That nothing else is in the way rests on what is known of the items that are stored: they
have ids, and where a width is declared whole vectors of it.
-/

namespace VectorBridge

namespace IdKind

/-! ## Keys that are mapped -/

/-- The integer keys that ids are mapped to from a place of a batch on: the number at the end
of each, or else its place. -/
def mappedKeys (place : Nat) : List String → List Nat
  | [] => []
  | id :: rest => (trailingNumber? id).getD place :: mappedKeys (place + 1) rest

/-- No two ids of a batch are mapped to one integer key. -/
def KeysClear (ids : List String) : Prop := (mappedKeys 0 ids).Nodup

instance (ids : List String) : Decidable (KeysClear ids) :=
  inferInstanceAs (Decidable (List.Nodup _))

theorem exists_mapFrom_iff {place : Nat} {seen : List (BackendId × String)} {items : List Item} :
    (∃ mapped, integer.mapFrom place seen items = .ok mapped) ↔
      (mappedKeys place (items.map (·.id))).Nodup ∧
        ∀ k ∈ mappedKeys place (items.map (·.id)), seen.lookup (.integer k) = none := by
  induction items generalizing place seen with
  | nil => exact ⟨fun _ => ⟨List.nodup_nil, nofun⟩, fun _ => ⟨[], rfl⟩⟩
  | cons item rest ih =>
    have hkey : ((integer.map? item.id).getD ⟨.integer place, true⟩).backend =
        .integer ((trailingNumber? item.id).getD place) := by
      rw [map?]
      cases trailingNumber? item.id <;> rfl
    rw [mapFrom, hkey, List.map_cons, mappedKeys, List.nodup_cons, List.forall_mem_cons]
    generalize (trailingNumber? item.id).getD place = key
    cases hseen : seen.lookup (.integer key) with
    | some previous =>
      refine iff_of_false ?_ ?_
      · rintro ⟨mapped, hrun⟩
        cases hrun
      · rintro ⟨-, hnone, -⟩
        cases hnone
    | none =>
      have hlookup : ∀ k, ((BackendId.integer key, item.id) :: seen).lookup (.integer k) = none ↔
          k ≠ key ∧ seen.lookup (.integer k) = none := by
        intro k
        by_cases heq : k = key
        · simp [heq]
        · have hne : (BackendId.integer k == BackendId.integer key) = false := by simpa using heq
          rw [List.lookup_cons, hne]
          exact ⟨fun h => ⟨heq, h⟩, fun h => h.2⟩
      have hrest : (∃ mapped, integer.mapFrom (place + 1)
          ((.integer key, item.id) :: seen) rest = .ok mapped) ↔ _ := ih
      simp only [hlookup] at hrest
      constructor
      · rintro ⟨mapped, hrun⟩
        cases hmap : integer.mapFrom (place + 1) ((.integer key, item.id) :: seen) rest with
        | error e =>
          simp only [hmap] at hrun
          cases hrun
        | ok ms =>
          obtain ⟨hnodup, hnew⟩ := hrest.1 ⟨ms, hmap⟩
          exact ⟨⟨fun hmem => (hnew key hmem).1 rfl, hnodup⟩, rfl, fun k hk => (hnew k hk).2⟩
      · rintro ⟨⟨hnot, hnodup⟩, -, hnew⟩
        obtain ⟨ms, hmap⟩ := hrest.2 ⟨hnodup, fun k hk =>
          ⟨fun heq => hnot (heq ▸ hk), hnew k hk⟩⟩
        simp only [hmap]
        exact ⟨_, rfl⟩

/-- **A batch is mapped to integer keys when no two of its ids are mapped to one.** -/
theorem exists_mapBatch_iff {items : List Item} :
    (∃ mapped, integer.mapBatch items = .ok mapped) ↔ KeysClear (items.map (·.id)) :=
  exists_mapFrom_iff.trans ⟨fun h => h.1, fun h => ⟨h, fun _ _ => rfl⟩⟩

end IdKind


namespace Milvus

variable {m m' : Memory} {name : String} {s : Stored} {S : Schema} {w : Nat}

/-! ## What is stored -/

/-- No id that is stored is empty, and where a width is declared every vector is read whole. -/
structure Stored.Complete (s : Stored) : Prop where
  named : ∀ row ∈ s.rows, (itemOf s.schema row).id.isEmpty = false
  wide : s.schema.vectorField ≠ documentFieldName → ∀ w, s.schema.dimension = some w →
    ∀ row ∈ s.rows, ∃ v, (itemOf s.schema row).embedding = some v ∧ v.length = w ∧ v.Finite

/-- Every collection is sound and complete. -/
def Memory.Complete (m : Memory) : Prop :=
  ∀ name s, Keyed.get? name m.collections = some s → s.Sound ∧ s.Complete

theorem Stored.Complete.filter (h : s.Complete) (p : Row → Bool) :
    Stored.Complete { s with rows := s.rows.filter p } where
  named row hrow := h.named row (List.mem_filter.1 hrow).1
  wide hvec w hw row hrow := h.wide hvec w hw row (List.mem_filter.1 hrow).1

/-- The vector of a row is read off the numbers that it was written as. -/
theorem vectorOf?_rowOf (hS : S.Apart) {item : Item} {key : MappedId} {row : Row}
    (h : rowOf S item key = .ok row) : vectorOf? row S.vectorField =
      some (Embedding.ofNumbers ((item.embedding.getD []).map Json.ofFloat32)) := by
  rw [vectorOf?, get?_vector_rowOf hS h]
  rfl

theorem embedding_eq_vectorOf? (hS : S.Apart) (hvec : S.vectorField ≠ documentFieldName)
    (row : Row) : (itemOf S row).embedding = vectorOf? row S.vectorField := by
  have hread : (itemOf S row).embedding =
      vectorOf? (Keyed.erase documentFieldName (Keyed.erase S.primaryField row)) S.vectorField :=
    rfl
  rw [hread, vectorOf?, Keyed.get?_erase_of_ne hvec.symm,
    Keyed.get?_erase_of_ne hS.primary_ne_vector, vectorOf?]

/-- Rows that are taken have vectors of the width that is declared. -/
theorem length_of_misfit? {rows : List Row} (h : s.misfit? rows = none)
    (hw : s.schema.dimension = some w) {row : Row} (hrow : row ∈ rows) {v : Embedding}
    (hv : vectorOf? row s.schema.vectorField = some v) : v.length = w := by
  rw [Stored.misfit?, hw, Option.bind_some, Option.map_eq_none_iff, List.find?_eq_none] at h
  have hfits := h v (List.mem_filterMap.2 ⟨row, hrow, hv⟩)
  simpa using hfits

/-- A collection without rows is sound and complete. -/
theorem sound_and_complete_of_nil (hS : S.Apart) :
    (⟨S, []⟩ : Stored).Sound ∧ (⟨S, []⟩ : Stored).Complete :=
  ⟨⟨hS, nofun, List.nodup_nil, List.nodup_nil⟩, nofun, nofun⟩

/-- A batch of items with ids leaves a collection complete. -/
theorem Stored.Complete.written {batch : List Item} {keys : List MappedId} {rows : List Row}
    (h : s.Complete) (hsound : s.Sound) (hids : ∀ item ∈ batch, item.id.isEmpty = false)
    (hplain : ∀ item ∈ batch, Metadata.Plain item.metadata)
    (hkeys : List.Forall₂ s.Admits batch keys) (hmade : rowsOf s.schema batch keys = .ok rows)
    (hfits : s.misfit? rows = none) : (s.written rows).Complete where
  named row hrow := by
    rcases mem_or_mem_of_written hrow with hnew | hold
    · obtain ⟨item, hitem, key, hadmits, hof⟩ :=
        exists_of_forall₂ (forall₂_rowOf hkeys hmade).flip hnew
      have hid := (keys_rowOf hsound.apart (hplain item hitem) hadmits.1 hof).2
      exact hid ▸ hids item hitem
    · exact h.named row hold
  wide hvec w hw row hrow := by
    rcases mem_or_mem_of_written hrow with hnew | hold
    · obtain ⟨item, -, key, -, hof⟩ := exists_of_forall₂ (forall₂_rowOf hkeys hmade).flip hnew
      have hwritten := vectorOf?_rowOf hsound.apart hof
      refine ⟨_, (embedding_eq_vectorOf? hsound.apart hvec row).trans hwritten, ?_, ?_⟩
      · exact length_of_misfit? hfits hw hnew hwritten
      · exact Embedding.finite_ofNumbers _
    · exact h.wide hvec w hw row hold

theorem keeps_complete_changing (name : String) (p : Row → Bool) :
    Step.Keeps Memory.Complete
      (Memory.changing name fun s => .ok { s with rows := s.rows.filter p }) := fun m hm =>
  forall_changing hm fun s s' hs h => by
    cases h
    exact ⟨(hm name s hs).1.filter p, (hm name s hs).2.filter p⟩

/-- **Calls keep collections complete.** -/
theorem keeps_complete : (family (τ := Memory)).adapter.Keeps
    (Session.ServerHas Memory.Complete) Metadata.Plain := by
  refine Family.keeps_of_addItems readsOnly ?_ ?_ ?_ ?_ ?_ ?_
  · intro _ name width metric m hm
    show Memory.Complete (Memory.create name width metric m).2
    unfold Memory.create
    split
    · exact hm
    · exact Keyed.forall_insert hm (sound_and_complete_of_nil (apart_plain _ _))
  · intro name
    refine Step.Keeps.bind (leaves_openCollection name).keeps fun _ m hm => ?_
    exact Keyed.forall_erase hm name
  · intro c ids
    show Step.Keeps Memory.Complete (deleteAll (τ := Memory) c (idSelectors c.schema ids))
    induction idSelectors c.schema ids with
    | nil => exact (Step.leaves_pure _).keeps
    | cons e rest ih => exact Step.Keeps.bind (keeps_complete_changing c.name _) fun _ => ih
  · exact fun c e => keeps_complete_changing c.name _
  · exact fun hm hattach => guards.plain_fetch (fun name s hs => (hm name s hs).1) hattach
  · intro name items hplain
    refine Family.Atomic.keeps_addItems atomic readsOnly
      fun {s h batch log d s₁ width t} hm A => ?_
    have hsound : s.server.Sound := fun name s hs => (hm name s hs).1
    obtain ⟨st, hs, rfl⟩ := attach_eq_ok A.attach
    have hs₁ : s₁.server = s.server := by rw [A.eq_with readsOnly]
    have hwrite := A.written
    rw [hs₁] at hwrite
    obtain ⟨keys, rows, hassign, hmade, rfl⟩ :=
      write_eq_ok (c := ⟨name, st.schema⟩) hs rfl hwrite
    have hbare := A.accepts.bare
    have hids := (Batch.checkIdsAfter_eq_ok_iff.1 A.ids).2
    have hbatch : ∀ item ∈ batch, item.id.isEmpty = false := by
      intro item hitem
      obtain ⟨other, hother, hid, -⟩ := Item.exists_of_bare hbare hitem
      exact hid ▸ (hids other hother).1
    have hplain' : ∀ item ∈ batch, Metadata.Plain item.metadata := Item.forall_of_bare hbare hplain
    have hdistinct : (batch.map (·.id)).Nodup := by
      rw [Item.map_eq_of_bare (fun _ => rfl) hbare]
      exact Batch.nodup_of_checkIds A.ids
    obtain ⟨hst, hcomplete⟩ := hm name st hs
    obtain ⟨-, hkeys, -⟩ := assignKeys_eq_ok (c := ⟨name, st.schema⟩) hst hs rfl hassign
    have hfits := misfit?_of_write (c := ⟨name, st.schema⟩) hs rfl hassign hmade hwrite
    have hafter := guards.write hsound A.attach hdistinct hplain'
    rw [hwrite] at hafter
    exact Keyed.forall_insert hm ⟨hafter name _ (Keyed.get?_insert_self _ _ _),
      hcomplete.written hst hbatch hplain' hkeys hmade hfits⟩

theorem Memory.Prepared.complete (h : m.Prepared) : m.Complete := by
  induction h with
  | empty => exact nofun
  | withCollection _ name hS ih => exact Keyed.forall_insert ih (sound_and_complete_of_nil hS)

/-- **Every Milvus server that calls lead to is complete.** -/
theorem complete_of_reached {c : Connection} (h : c.Reached) :
    ∀ t, c = .milvus t → t.server.Complete := by
  induction h with
  | fresh h =>
    rintro t rfl
    cases h with
    | milvus hm context => exact hm.complete
  | @resolving c r h ih =>
    intro t ht
    cases c with
    | milvus t₀ =>
      cases ht
      exact ih t₀ rfl
    | chroma | chromaRest | qdrant | postgres | milvusRest | weaviate | weaviateRest | tables
    | directory | unsteady => cases ht
  | @perform c call hcall h ih =>
    intro t ht
    cases c with
    | milvus t₀ =>
      cases ht
      exact keeps_complete.perform hcall t₀ (ih t₀ rfl)
    | chroma | chromaRest | qdrant | postgres | milvusRest | weaviate | weaviateRest | tables
    | directory | unsteady => cases ht

/-! ## Keys of the batch -/

/-- An item that can be stored: its metadata leaves the schema's fields and the reserved key
alone, and it has a finite vector of a width. -/
structure Schema.Takes (S : Schema) (w : Nat) (item : Item) : Prop where
  plain : Metadata.Plain item.metadata
  free : ∀ key ∈ Keyed.keys item.metadata, S.reserved.contains key = false
  vector : ∃ v, item.embedding = some v ∧ v.length = w ∧ v.Finite

/-- A claim that no other one makes does not clash. -/
theorem clash?_eq_none {claimed claims : List (Nat × String)} (h : (claims.map (·.1)).Nodup)
    (hnew : ∀ claim ∈ claims, claim.1 ∉ claimed.map (·.1)) : clash? claimed claims = none := by
  induction claims generalizing claimed with
  | nil => rfl
  | cons claim rest ih =>
    rw [List.map_cons, List.nodup_cons] at h
    rw [List.forall_mem_cons] at hnew
    have hfree : claimed.lookup claim.1 = none := by
      refine List.lookup_eq_none_iff.2 fun e he => bne_iff_ne.2 fun heq => ?_
      exact hnew.1 (heq ▸ List.mem_map_of_mem he)
    rw [clash?, hfree]
    refine ih h.2 fun later hlater hmem => ?_
    rcases List.mem_cons.1 hmem with heq | hmem
    · exact h.1 (List.mem_map.2 ⟨later, hlater, heq⟩)
    · exact hnew.2 later hlater hmem

/-- An item that leaves the schema's fields alone is made a row. -/
theorem exists_rowOf {item : Item} (key : MappedId)
    (h : ∀ field ∈ Keyed.keys item.metadata, S.reserved.contains field = false) :
    ∃ row, rowOf S item key = .ok row := by
  have hfree : (Keyed.keys item.metadata).find? (fun field => S.reserved.contains field) = none :=
    List.find?_eq_none.2 fun field hfield => by rw [h field hfield]; exact Bool.false_ne_true
  rw [rowOf, hfree]
  exact ⟨_, rfl⟩

theorem exists_rowsOf {items : List Item} (keys : List MappedId)
    (h : ∀ item ∈ items, ∀ field ∈ Keyed.keys item.metadata, S.reserved.contains field = false) :
    ∃ rows, rowsOf S items keys = .ok rows := by
  induction items generalizing keys with
  | nil => exact ⟨[], rfl⟩
  | cons item items ih =>
    cases keys with
    | nil => exact ⟨[], rfl⟩
    | cons key keys =>
      rw [List.forall_mem_cons] at h
      obtain ⟨row, hrow⟩ := exists_rowOf key h.1
      obtain ⟨rest, hrest⟩ := ih keys h.2
      rw [rowsOf, hrow]
      simp only [hrest]
      exact ⟨_, rfl⟩

/-- The key of a row is one that its id may stand under. -/
theorem Schema.Keys.exists_maps {row : Row} (h : S.Keys row) (hS : S.Apart)
    (hkind : S.idKind = .integer) :
    ∃ key, S.Maps (itemOf S row).id key ∧ S.key row = some (keyJson key.backend) := by
  obtain ⟨k, hk, hkey, hgiven⟩ := h.of_integer hkind
  refine ⟨⟨.integer k, toString k != (itemOf S row).id⟩, ?_, hkey⟩
  unfold Schema.Maps
  rw [hkind]
  refine ⟨k, hk, rfl, fun hne => ?_⟩
  rcases hgiven with hnone | ⟨given, hsome, hnamed⟩
  · refine absurd ?_ hne
    rw [itemOf_id_of_none hS hnone, keyOf_nat hk hkey]
    rfl
  · rw [itemOf_id_of_given hS hsome]
    exact hnamed

/-- What is known of a batch of items that are stored. -/
structure Stored.Rewrites (s : Stored) (w : Nat) (batch : List Item) : Prop where
  distinct : (batch.map (·.id)).Nodup
  stored : ∀ item ∈ batch, ∃ row ∈ s.rows, (itemOf s.schema row).id = item.id
  few : batch.length ≤ window
  takes : ∀ item ∈ batch, s.schema.Takes w item

namespace Stored.Rewrites

variable {batch : List Item} {keys : List MappedId} {rows : List Row}

theorem plain (B : s.Rewrites w batch) : ∀ item ∈ batch, Metadata.Plain item.metadata :=
  fun item hitem => (B.takes item hitem).plain

/-- Each row that is made of the batch has the key of the row of its id. -/
theorem exists_stored (B : s.Rewrites w batch) (h : s.Sound)
    (hkeys : List.Forall₂ s.Admits batch keys) (hmade : rowsOf s.schema batch keys = .ok rows) :
    ∀ row ∈ rows, ∃ old ∈ s.rows, (itemOf s.schema old).id = (itemOf s.schema row).id ∧
      s.schema.key old = s.schema.key row := by
  intro row hrow
  obtain ⟨-, hids, hstored⟩ := rowsOf_eq_ok h hkeys B.plain hmade
  have hmem : (itemOf s.schema row).id ∈ batch.map (·.id) := hids ▸ List.mem_map_of_mem hrow
  obtain ⟨item, hitem, hid⟩ := List.mem_map.1 hmem
  obtain ⟨old, hold, heq⟩ := B.stored item hitem
  exact ⟨old, hold, heq.trans hid, hstored row hrow old hold (heq.trans hid)⟩

/-- The keys of the rows are distinct, as those of the stored rows are. -/
theorem nodup_keys (B : s.Rewrites w batch) (h : s.Sound)
    (hkeys : List.Forall₂ s.Admits batch keys) (hmade : rowsOf s.schema batch keys = .ok rows) :
    (rows.map s.schema.key).Nodup := by
  have hids : (rows.map fun row => (itemOf s.schema row).id).Nodup := by
    rw [(rowsOf_eq_ok h hkeys B.plain hmade).2.1]
    exact B.distinct
  refine List.Nodup.map_on (fun row hrow row' hrow' heq => ?_) (List.Nodup.of_map _ hids)
  obtain ⟨old, hold, hid, hkey⟩ := B.exists_stored h hkeys hmade row hrow
  obtain ⟨old', hold', hid', hkey'⟩ := B.exists_stored h hkeys hmade row' hrow'
  obtain rfl := List.inj_on_of_nodup_map h.distinct hold hold'
    (hkey.trans (heq.trans hkey'.symm))
  exact List.inj_on_of_nodup_map hids hrow hrow' (hid.symm.trans hid')

/-- **A batch of stored items that could be mapped is assigned its keys.** -/
theorem exists_keys (B : s.Rewrites w batch) (h : s.Sound) (hkind : s.schema.idKind = .integer)
    (hclear : IdKind.KeysClear (batch.map (·.id))) :
    ∃ keys rows, s.Assigns batch keys ∧ List.Forall₂ s.Admits batch keys ∧
      rowsOf s.schema batch keys = .ok rows := by
  obtain ⟨mapped, hmap⟩ := IdKind.exists_mapBatch_iff.2 hclear
  have hkeys := forall₂_admits_settle h hkind hmap fun _ => B.few
  generalize hsettled : List.zipWith (settle _) batch mapped = keys at hkeys
  obtain ⟨rows, hmade⟩ := exists_rowsOf (S := s.schema) keys fun item hitem =>
    (B.takes item hitem).free
  have hstands := (stands_of_rowsOf h hkind hkeys B.plain hmade).1
  have hdistinct : ((integerKeys batch keys).map (·.1)).Nodup := by
    have hnodup := B.nodup_keys h hkeys hmade
    rw [map_key_of_stands hstands] at hnodup
    exact List.Nodup.of_map _ hnodup
  refine ⟨keys, rows, ⟨⟨mapped, hmap, hsettled.symm⟩, fun _ => B.few,
    clash?_eq_none hdistinct fun _ _ => List.not_mem_nil, ?_, ?_⟩, hkeys, hmade⟩
  · refine Nat.le_trans (List.length_filterMap_le _ _) ?_
    rw [List.length_zip]
    exact Nat.le_trans (Nat.min_le_left _ _) B.few
  · -- the row that is found for a claim is the stored row of its id
    refine foreign?_eq_none fun claim hclaim owner howner => ?_
    have hheld := List.mem_reverse.1 (mem_of_lookup howner)
    obtain ⟨found, hasked, hfound⟩ := List.mem_filterMap.1 hheld
    have hmem := (List.mem_filter.1 (List.mem_of_mem_take hasked)).1
    obtain ⟨hkey, hid⟩ := (ownerOf_eq_some_iff (h.keys found hmem) hkind).1 hfound
    obtain ⟨row, hrow, hclaims⟩ := exists_row_of_claim hstands hclaim
    obtain ⟨old, hold, hold', hkey'⟩ := B.exists_stored h hkeys hmade row hrow
    obtain rfl := List.inj_on_of_nodup_map h.distinct hmem hold
      (hkey.trans (hclaims.key.symm.trans hkey'.symm))
    exact hid.symm.trans (hold'.trans hclaims.id)

/-- The rows have the width of the schema, if it declares one. -/
theorem misfit?_eq_none (B : s.Rewrites w batch) (h : s.Sound)
    (hdeclared : ∀ n, s.schema.dimension = some n → n = w)
    (hkeys : List.Forall₂ s.Admits batch keys) (hmade : rowsOf s.schema batch keys = .ok rows) :
    s.misfit? rows = none := by
  cases hdim : s.schema.dimension with
  | none => rw [Stored.misfit?, hdim, Option.bind_none]
  | some n =>
    rw [Stored.misfit?, hdim, Option.bind_some, Option.map_eq_none_iff, List.find?_eq_none]
    intro v hv
    obtain ⟨row, hrow, hread⟩ := List.mem_filterMap.1 hv
    obtain ⟨item, hitem, key, -, hof⟩ := exists_of_forall₂ (forall₂_rowOf hkeys hmade).flip hrow
    obtain ⟨e, he, hlength, hfinite⟩ := (B.takes item hitem).vector
    rw [vectorOf?_rowOf h.apart hof, he, Option.getD_some, Embedding.ofNumbers_map hfinite] at hread
    obtain rfl := Option.some.inj hread
    simp [hdeclared n hdim, hlength]

/-- **A batch of stored items that could be mapped is written.** -/
theorem exists_write (B : s.Rewrites w batch) (h : s.Sound) (hkind : s.schema.idKind = .integer)
    (hclear : IdKind.KeysClear (batch.map (·.id)))
    (hdeclared : ∀ n, s.schema.dimension = some n → n = w)
    (hs : Keyed.get? name m.collections = some s) :
    ∃ keys rows, List.Forall₂ s.Admits batch keys ∧ rowsOf s.schema batch keys = .ok rows ∧
      family.write ⟨name, s.schema⟩ batch m =
        (.ok (), ⟨Keyed.insert name (s.written rows) m.collections⟩) := by
  obtain ⟨keys, rows, A, hkeys, hmade⟩ := B.exists_keys h hkind hclear
  refine ⟨keys, rows, hkeys, hmade, ?_⟩
  have hassign : assignKeys ⟨name, s.schema⟩ batch m = (.ok keys, m) :=
    (assignKeys_integer_iff (c := ⟨name, s.schema⟩) hs rfl hkind).2 ⟨rfl, A⟩
  have hput : Server.upsert name rows m =
      (.ok (), (⟨Keyed.insert name (s.written rows) m.collections⟩ : Memory)) :=
    changing_of_ok hs (by rw [Stored.upsert, B.misfit?_eq_none h hdeclared hkeys hmade]; rfl)
  show (assignKeys _ batch >>= fun keys => _) m = _
  rw [Step.bind_of_ok hassign, Action.ofResult_bind_of_ok hmade]
  exact Call.toAction_of_ok hput

end Stored.Rewrites

/-! ## Rows in place -/

/-- Rows whose keys are there leave the keys as they are. -/
theorem map_key_written {rows : List Row} (hstored : ∀ row ∈ s.rows, s.schema.Keys row)
    (hrows : ∀ row ∈ rows, s.schema.Keys row ∧ s.schema.key row ∈ s.rows.map s.schema.key) :
    (s.written rows).rows.map s.schema.key = s.rows.map s.schema.key := by
  induction rows generalizing s with
  | nil => rfl
  | cons row rest ih =>
    rw [List.forall_mem_cons] at hrows
    have hsame : ∀ r ∈ s.rows, sameKey (s.schema.key r) (s.schema.key row) = true ↔
        s.schema.key r = s.schema.key row := fun r hr => sameKey_iff (hstored r hr) hrows.1.1
    have hplaced : (place s.schema.primaryField row s.rows).map s.schema.key =
        s.rows.map s.schema.key := by
      rw [place_eq]
      exact placeBy.map_of_any hsame hrows.1.2
    have hrest := ih (s := { s with rows := place s.schema.primaryField row s.rows })
      (fun r hr => ?_) fun r hr => ⟨(hrows.2 r hr).1, hplaced ▸ (hrows.2 r hr).2⟩
    · exact hrest.trans hplaced
    · rw [place_eq] at hr
      rcases placeBy.eq_or_mem_of_mem hr with rfl | hold
      · exact hrows.1.1
      · exact hstored r hold

end Milvus

end VectorBridge
