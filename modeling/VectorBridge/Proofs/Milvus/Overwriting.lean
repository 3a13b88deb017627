import VectorBridge.Proofs.Milvus.ById
/-!
# Batches written under integer keys

An integer key may be claimed by two ids, so before a batch is written the server
is asked who holds the keys that it claims. The question is for as many rows as
there are claims, and the server compares keys as binary64 values: more rows may
be near the claims than are asked for, and the owner of a claimed key be cut off.
What `additions_keep_rows_apart` rests on is that nothing is cut off when the keys
of the collection are apart after the write. Every stored key is still there then,
so a row near a claim has the claimed key itself, and there are no more such rows
than claims.
-/

namespace VectorBridge

namespace Milvus

variable {m m' : Memory} {name : String} {s : Stored} {c : Opened}

/-- The collection after some rows have been written. -/
def Stored.written (s : Stored) (rows : List Row) : Stored :=
  { s with rows := rows.foldl (fun l row => place s.schema.primaryField row l) s.rows }

/-- No two integer keys of a collection are one as binary64 values. -/
def Stored.KeysApart (s : Stored) : Prop :=
  ∀ row ∈ s.rows, ∀ row' ∈ s.rows, ∀ k k', keyOf s.schema row = .integer k →
    keyOf s.schema row' = .integer k' → (Number.int k).looseEq (.int k') = true → k = k'

/-- Keys that binary64 values hold exactly are apart. -/
theorem keysApart_of_lt
    (hsmall : ∀ row ∈ s.rows, ∀ k, keyOf s.schema row = .integer k → k < 2 ^ 53) :
    s.KeysApart := fun row hrow row' hrow' k k' hk hk' heq =>
  Number.eq_of_looseEq_int (hsmall row hrow k hk) (hsmall row' hrow' k' hk') heq

/-! ## Rows of a batch -/

/-- A row stands under the key and for the id of a claim. -/
structure Schema.Stands (S : Schema) (row : Row) (claim : Nat × String) : Prop where
  fits : claim.1 < Word.span64
  key : S.key row = some (.nat claim.1)
  id : (itemOf S row).id = claim.2

theorem Schema.Stands.keyOf {S : Schema} {row : Row} {claim : Nat × String} (h : S.Stands row claim) :
    keyOf S row = .integer claim.1 := keyOf_nat h.fits h.key

theorem exists_of_forall₂ {α β : Type} {R : α → β → Prop} {l : List α} {l' : List β}
    (h : List.Forall₂ R l l') {a : α} (ha : a ∈ l) : ∃ b ∈ l', R a b := by
  induction h with
  | nil => cases ha
  | cons hab _ ih =>
    rcases List.mem_cons.1 ha with rfl | ha
    · exact ⟨_, List.mem_cons_self, hab⟩
    · obtain ⟨b, hb, hab⟩ := ih ha
      exact ⟨b, List.mem_cons_of_mem _ hb, hab⟩

/-- A list whose items each have one that they are related to. -/
theorem exists_forall₂ {α β : Type} {R : α → β → Prop} {l : List α} (h : ∀ a ∈ l, ∃ b, R a b) :
    ∃ l', List.Forall₂ R l l' := by
  induction l with
  | nil => exact ⟨[], .nil⟩
  | cons a l ih =>
    rw [List.forall_mem_cons] at h
    obtain ⟨b, hb⟩ := h.1
    obtain ⟨l', hl'⟩ := ih h.2
    exact ⟨b :: l', .cons hb hl'⟩

theorem map_eq_of_forall₂ {α β γ : Type} {R : α → β → Prop} {g : α → γ} {g' : β → γ} {l : List α}
    {l' : List β} (h : List.Forall₂ R l l') (heq : ∀ {a b}, R a b → g a = g' b) :
    l.map g = l'.map g' := by
  have hmaps : List.Forall₂ (· = ·) (l.map g) (l'.map g') :=
    List.forall₂_map_left_iff.2 (List.forall₂_map_right_iff.2 (h.imp fun _ _ => heq))
  rwa [List.forall₂_eq_eq_eq] at hmaps

section Batch

variable {items : List Item} {keys : List MappedId} {rows : List Row}

/-- The rows of a batch stand under the keys that it claims. -/
theorem stands_of_rowsOf (h : s.Sound) (hkind : s.schema.idKind = .integer)
    (hkeys : List.Forall₂ s.Admits items keys)
    (hplain : ∀ item ∈ items, Metadata.Plain item.metadata)
    (hrows : rowsOf s.schema items keys = .ok rows) :
    List.Forall₂ s.schema.Stands rows (integerKeys items keys) ∧
      List.Forall₂ (fun item row => (itemOf s.schema row).id = item.id ∧
        ∃ key, rowOf s.schema item key = .ok row) items rows := by
  induction hkeys generalizing rows with
  | nil =>
    cases hrows
    exact ⟨.nil, .nil⟩
  | @cons item key items keys hkey _ ih =>
    rw [List.forall_mem_cons] at hplain
    rw [rowsOf] at hrows
    split at hrows
    · cases hrows
    · rename_i row hrow
      split at hrows
      · cases hrows
      · rename_i rest hrest
        cases hrows
        obtain ⟨hstands, hmade⟩ := ih hplain.2 hrest
        have hmaps := hkey.1
        have hid := (keys_rowOf h.apart hplain.1 hmaps hrow).2
        refine ⟨?_, .cons ⟨hid, key, hrow⟩ hmade⟩
        have hstored := (get?_rowOf h.apart hplain.1 hrow).1
        unfold Schema.Maps at hmaps
        rw [hkind] at hmaps
        obtain ⟨k, hk, rfl, -⟩ := hmaps
        exact .cons ⟨hk, hstored, hid⟩ hstands

/-- Rows have the keys of the claims that they stand for. -/
theorem map_key_of_stands {claims : List (Nat × String)}
    (hstands : List.Forall₂ s.schema.Stands rows claims) :
    rows.map s.schema.key = (claims.map (·.1)).map fun k => some (.nat k) := by
  rw [List.map_map]
  exact map_eq_of_forall₂ hstands fun h => h.key

/-- Distinct claims are distinct keys. -/
theorem nodup_keys_of_stands {claims : List (Nat × String)}
    (hstands : List.Forall₂ s.schema.Stands rows claims) (hclaims : (claims.map (·.1)).Nodup) :
    (rows.map s.schema.key).Nodup := by
  rw [map_key_of_stands hstands]
  exact hclaims.map fun k k' heq => nat_inj (Option.some.inj heq)

/-- **What is there after a batch is written**: its rows, and the old ones with
other keys. -/
theorem mem_written (h : s.Sound) (hrows : ∀ row ∈ rows, s.schema.Keys row)
    (hdistinct : (rows.map s.schema.key).Nodup) {row : Row} :
    row ∈ (s.written rows).rows ↔
      row ∈ rows ∨ row ∈ s.rows ∧ s.schema.key row ∉ rows.map s.schema.key := by
  refine mem_foldl_put (P := s.schema.Keys)
    (J := fun l => (∀ r ∈ l, s.schema.Keys r) ∧ (l.map s.schema.key).Nodup)
    (fun {row l} hrow hl => ?_) hrows ⟨h.keys, h.distinct⟩ hdistinct
  have hsame : ∀ r ∈ l, sameKey (s.schema.key r) (s.schema.key row) = true ↔
      s.schema.key r = s.schema.key row := fun r hr => sameKey_iff (hl.1 r hr) hrow
  rw [place_eq]
  refine ⟨⟨fun r hr => ?_, placeBy.nodup hsame hl.2⟩, fun b => placeBy.mem_iff hsame hl.2⟩
  rcases (placeBy.mem_iff hsame hl.2).1 hr with rfl | ⟨hold, -⟩
  · exact hrow
  · exact hl.1 r hold

/-! ## Keys that are held -/

section Claims

variable {claims : List (Nat × String)} {row : Row}

/-- No key gets lost by writing. -/
theorem exists_key_written (h : s.Sound) (hrows : ∀ row ∈ rows, s.schema.Keys row)
    (hdistinct : (rows.map s.schema.key).Nodup) (hrow : row ∈ s.rows) :
    ∃ row' ∈ (s.written rows).rows, s.schema.key row' = s.schema.key row := by
  by_cases hmade : s.schema.key row ∈ rows.map s.schema.key
  · obtain ⟨row', hrow', hkey⟩ := List.mem_map.1 hmade
    exact ⟨row', (mem_written h hrows hdistinct).2 (.inl hrow'), hkey⟩
  · exact ⟨row, (mem_written h hrows hdistinct).2 (.inr ⟨hrow, hmade⟩), rfl⟩

theorem exists_row_of_claim (hstands : List.Forall₂ s.schema.Stands rows claims)
    {claim : Nat × String} (hclaim : claim ∈ claims) : ∃ row ∈ rows, s.schema.Stands row claim :=
  exists_of_forall₂ hstands.flip hclaim

theorem holders_eq (s : Stored) (claims : List (Nat × String)) :
    s.holders claims = ((s.rows.filter (s.schema.numberedIn (claims.map (·.1))).holds).take
      claims.length).filterMap (ownerOf s.schema) := by
  rw [Stored.holders, Schema.numberedIn, List.map_map]
  rfl

/-- Where keys are apart after a write, the rows asked for before it are those of
the claimed keys. -/
theorem key_mem_of_numberedIn (h : s.Sound) (hkind : s.schema.idKind = .integer)
    (hrows : ∀ row ∈ rows, s.schema.Keys row) (hdistinct : (rows.map s.schema.key).Nodup)
    (hstands : List.Forall₂ s.schema.Stands rows claims) (hapart : (s.written rows).KeysApart)
    (hrow : row ∈ s.rows)
    (hnear : (s.schema.numberedIn (claims.map (·.1))).holds row = true) :
    s.schema.key row ∈ claims.map fun claim => some (Json.nat claim.1) := by
  obtain ⟨k, hk, hkey, -⟩ := (h.keys row hrow).of_integer hkind
  rw [Schema.numberedIn, holds_primaryIn hkey] at hnear
  obtain ⟨n, hn, heq⟩ := List.any_eq_true.1 hnear
  obtain ⟨claim, hclaim, rfl⟩ := List.mem_map.1 hn
  -- both keys are there after the write
  obtain ⟨row₁, hrow₁, hkey₁⟩ := exists_key_written h hrows hdistinct hrow
  obtain ⟨row₂, hmade, hstands₂⟩ := exists_row_of_claim hstands hclaim
  have hrow₂ : row₂ ∈ (s.written rows).rows := (mem_written h hrows hdistinct).2 (.inl hmade)
  obtain rfl := hapart row₁ hrow₁ row₂ hrow₂ k claim.1 (keyOf_nat hk (hkey₁.trans hkey))
    hstands₂.keyOf heq
  exact List.mem_map.2 ⟨claim, hclaim, hkey.symm⟩

/-- Where keys are apart after a write, none of the rows asked for before it is cut
off: they have claimed keys, and so are no more than the claims. -/
theorem holders_eq_of_apart (h : s.Sound) (hkind : s.schema.idKind = .integer)
    (hrows : ∀ row ∈ rows, s.schema.Keys row) (hdistinct : (rows.map s.schema.key).Nodup)
    (hstands : List.Forall₂ s.schema.Stands rows claims)
    (hapart : (s.written rows).KeysApart) :
    s.holders claims = (s.rows.filter (s.schema.numberedIn (claims.map (·.1))).holds).filterMap
      (ownerOf s.schema) := by
  let selected := s.rows.filter (s.schema.numberedIn (claims.map (·.1))).holds
  have hnodup : (selected.map s.schema.key).Nodup :=
    h.distinct.sublist (List.filter_sublist.map _)
  have hclaimed : selected.map s.schema.key ⊆ claims.map fun claim => some (Json.nat claim.1) := by
    intro key hmem
    obtain ⟨row, hrow, rfl⟩ := List.mem_map.1 hmem
    obtain ⟨hrow, hnear⟩ := List.mem_filter.1 hrow
    exact key_mem_of_numberedIn h hkind hrows hdistinct hstands hapart hrow hnear
  have hlength : selected.length ≤ claims.length := by
    have hle := (List.subperm_of_subset hnodup hclaimed).length_le
    rwa [List.length_map, List.length_map] at hle
  rw [holders_eq, List.take_of_length_le hlength]

/-- **Where keys are apart after a write, no claimed key was another's**: the owner of
a claimed key was among the answers. -/
theorem id_of_claimed (h : s.Sound) (hkind : s.schema.idKind = .integer)
    (hrows : ∀ row ∈ rows, s.schema.Keys row) (hdistinct : (rows.map s.schema.key).Nodup)
    (hstands : List.Forall₂ s.schema.Stands rows claims) (hclears : s.Clears claims)
    (hapart : (s.written rows).KeysApart) (hrow : row ∈ s.rows) {claim : Nat × String}
    (hclaim : claim ∈ claims) (hkey : s.schema.key row = some (.nat claim.1)) :
    (itemOf s.schema row).id = claim.2 := by
  have hholders := holders_eq_of_apart h hkind hrows hdistinct hstands hapart
  have hnear : (s.schema.numberedIn (claims.map (·.1))).holds row = true := by
    rw [Schema.numberedIn, holds_primaryIn hkey]
    exact nearKey_of_mem (List.mem_map_of_mem hclaim)
  have hfound : (claim.1, (itemOf s.schema row).id) ∈ s.holders claims := by
    rw [hholders]
    exact List.mem_filterMap.2 ⟨row, List.mem_filter.2 ⟨hrow, hnear⟩,
      (ownerOf_eq_some_iff (h.keys row hrow) hkind).2 ⟨hkey, rfl⟩⟩
  obtain ⟨owner, hlookup⟩ := exists_lookup_of_mem (List.mem_reverse.2 hfound)
  -- the row that is found for the key is the only one with it
  rw [← hclears.free claim hclaim owner hlookup]
  have hmem : (claim.1, owner) ∈ s.holders claims := List.mem_reverse.1 (mem_of_lookup hlookup)
  rw [hholders] at hmem
  obtain ⟨row', hmem, howner⟩ := List.mem_filterMap.1 hmem
  have hrow' : row' ∈ s.rows := (List.mem_filter.1 hmem).1
  obtain ⟨hkey', rfl⟩ := (ownerOf_eq_some_iff (h.keys row' hrow') hkind).1 howner
  rw [List.inj_on_of_nodup_map h.distinct hrow' hrow (hkey'.trans hkey.symm)]

end Claims

end Batch

/-! ## Rows read back -/

/-- The metadata that is read back is the item's. -/
theorem get?_metadata_rowOf {S : Schema} {item : Item} {key : MappedId} {row : Row}
    (hplain : Metadata.Plain item.metadata) (h : rowOf S item key = .ok row) (field : String) :
    Keyed.get? field (itemOf S row).metadata = Keyed.get? field item.metadata := by
  rw [rowOf] at h
  split at h
  · cases h
  · rename_i hfree
    obtain rfl := Except.ok.inj h
    have hnone : S.reserved.contains field = true → Keyed.get? field item.metadata = none := by
      intro hreserved
      rw [Option.eq_none_iff_forall_not_mem]
      intro v hv
      have hkey : field ∈ Keyed.keys item.metadata := List.mem_map_of_mem (Keyed.mem_of_get? hv)
      exact List.find?_eq_none.1 hfree field hkey hreserved
    simp only [itemOf, IdKind.recover_snd, Keyed.get?_erase]
    by_cases hg : givenIdKey = field
    · subst hg
      rw [if_pos rfl]
      exact hplain.symm
    by_cases hv : S.vectorField = field
    · rw [if_neg hg, if_pos hv, hnone (by simp [Schema.reserved, hv])]
    by_cases hd : documentFieldName = field
    · rw [if_neg hg, if_neg hv, if_pos hd, hnone (by simp [Schema.reserved, hd])]
    by_cases hp : S.primaryField = field
    · rw [if_neg hg, if_neg hv, if_neg hd, if_pos hp, hnone (by simp [Schema.reserved, hp])]
    rw [if_neg hg, if_neg hv, if_neg hd, if_neg hp]
    split
    · rw [Keyed.get?_insert_of_ne hg, Keyed.get?_insert_of_ne hv, Keyed.get?_insert_of_ne hd,
        Keyed.get?_insert_of_ne hp]
    · rw [Keyed.get?_insert_of_ne hv, Keyed.get?_insert_of_ne hd, Keyed.get?_insert_of_ne hp]

/-- Where keys are apart, nothing is taken for items that are there. -/
theorem takenFor_of_keysApart (h : s.Sound) (hkind : s.schema.idKind = .integer)
    (hapart : s.KeysApart) {ids : List String}
    (hids : ∀ id ∈ ids, ∃ row ∈ s.rows, (itemOf s.schema row).id = id) : s.takenFor ids = [] := by
  rw [Stored.takenFor, List.map_eq_nil_iff, List.filter_eq_nil_iff]
  intro other hother htakes
  obtain ⟨hnear, hother'⟩ := Bool.and_eq_true_iff.1 htakes
  obtain ⟨k', hk', hkey', -⟩ := (h.keys other hother).of_integer hkind
  rw [near_of_key hk' hkey'] at hnear
  obtain ⟨n, hn, heq⟩ := List.any_eq_true.1 hnear
  obtain ⟨id, hid, hplain⟩ := List.mem_filterMap.1 hn
  obtain ⟨row, hrow, rfl⟩ := hids id hid
  obtain ⟨k, hk, hkey, hgiven⟩ := (h.keys row hrow).of_integer hkind
  rcases hgiven with hnone | ⟨given, hsome, hnamed⟩
  · -- the number is the key of the row, so the other row is the row itself
    have hnumber : (itemOf s.schema row).id = toString k := by
      rw [itemOf_id_of_none h.apart hnone, keyOf_nat hk hkey]
      rfl
    rw [hnumber, plainNumber?_toString hk] at hplain
    obtain rfl := Option.some.inj hplain
    obtain rfl := hapart other hother row hrow k' k (keyOf_nat hk' hkey') (keyOf_nat hk hkey) heq
    obtain rfl := List.inj_on_of_nodup_map h.distinct hother hrow (hkey'.trans hkey.symm)
    rw [isPlainNumber, hnumber, plainNumber?_toString hk, ← hnumber, List.contains_eq_mem,
      decide_eq_true hid] at hother'
    cases hother'
  · rw [itemOf_id_of_given h.apart hsome, hnamed] at hplain
    cases hplain

/-- An item that is there is the only one of its id. -/
theorem ofIds_singleton (h : s.Sound) {row : Row} (hrow : row ∈ s.rows) :
    storage.ofIds s [(itemOf s.schema row).id] = [itemOf s.schema row] := by
  have hrows : s.rows.filter (fun r => [(itemOf s.schema row).id].contains (itemOf s.schema r).id) =
      [row] := by
    refine List.perm_singleton.1 ((List.perm_ext_iff_of_nodup ?_ (List.nodup_singleton row)).2 ?_)
    · exact (List.Nodup.of_map _ h.distinct).filter _
    · intro r
      rw [List.mem_filter, List.contains_iff_mem, List.mem_singleton, List.mem_singleton]
      refine ⟨fun hr => h.eq_of_id hr.1 hrow hr.2, ?_⟩
      rintro rfl
      exact ⟨hrow, rfl⟩
  rw [Storage.ofIds, Storage.items, List.filter_map]
  exact congrArg (List.map (itemOf s.schema)) hrows

/-- Where keys are apart, an item that is there is fetched by its id. -/
theorem fetch_of_keysApart (ho : storage.Opened family Memory.Sound m name c s)
    (hkind : s.schema.idKind = .integer) (hapart : s.KeysApart) {row : Row} (hrow : row ∈ s.rows) :
    family.fetch c [(itemOf s.schema row).id] m = (.ok [itemOf s.schema row], m) := by
  have h : s.Sound := ho.inv name s ho.held
  have hwindow : [(itemOf s.schema row).id].length ≤ window := (by decide : 1 ≤ window)
  obtain ⟨found, hfetch, -, -, hperm⟩ := fetch_apply h hkind ho hwindow
  have hids : ∀ id ∈ [(itemOf s.schema row).id], ∃ row ∈ s.rows, (itemOf s.schema row).id = id := by
    intro id hid
    exact ⟨row, hrow, (List.mem_singleton.1 hid).symm⟩
  have hfound := hperm (takenFor_of_keysApart h hkind hapart hids)
  rw [ofIds_singleton h hrow] at hfound
  rwa [List.perm_singleton.1 hfound] at hfetch

/-- Where keys are apart, an item that is there is read by its id. -/
theorem getItems_of_row {t : Session Memory} (ht : t.server.Sound) (hconn : t.connected = true)
    (hheld : Keyed.get? name t.server.collections = some s) (hkind : s.schema.idKind = .integer)
    (hapart : s.KeysApart) {row : Row} (hrow : row ∈ s.rows) :
    family.getItems name [(itemOf s.schema row).id] t = (.ok [itemOf s.schema row], t) := by
  obtain ⟨c, hattach⟩ := lawful.attach_of_held hheld
  have hfetch := fetch_of_keysApart ⟨ht, hattach, hheld⟩ hkind hapart hrow
  exact Family.getItems_of_fetch hconn hattach hfetch nofun

/-! ## Writing a batch -/

/-- What a write of a batch did: it failed and changed nothing, or it put the rows
made of the batch under the keys that were assigned. -/
def Writes (c : Opened) (s : Stored) (items : List Item) (m : Memory) (r : Result Unit × Memory) :
    Prop :=
  (r.1 ≠ .ok () ∧ r.2 = m) ∨
    ∃ keys rows, assignKeys c items m = (.ok keys, m) ∧ rowsOf s.schema items keys = .ok rows ∧
      r = (.ok (), ⟨Keyed.insert c.name (s.written rows) m.collections⟩)

theorem write_cases (hs : Keyed.get? c.name m.collections = some s) (hc : c.schema = s.schema)
    (items : List Item) : Writes c s items m (family.write c items m) := by
  refine Step.bind_cases (fun e m₁ hassign => ?_) fun keys m₁ hassign => ?_
  all_goals obtain rfl := eq_of_assignKeys hassign
  · exact .inl ⟨by simp, rfl⟩
  refine Step.bind_cases (P := Writes c s items m₁) (fun e m₂ hmake => ?_) fun rows m₂ hmake => ?_
  all_goals obtain ⟨hmade, rfl⟩ := Prod.mk.inj hmake
  · exact .inl ⟨by simp, rfl⟩
  cases hfit : s.misfit? rows with
  | some widths =>
    have hput : Server.upsert c.name rows m₁ = _ :=
      changing_of_error hs (by rw [Stored.upsert, hfit])
    rw [Call.toAction_of_error hput]
    exact .inl ⟨by simp, rfl⟩
  | none =>
    have hput : Server.upsert c.name rows m₁ = _ :=
      changing_of_ok hs (by rw [Stored.upsert, hfit])
    rw [Call.toAction_of_ok hput]
    exact .inr ⟨keys, rows, hassign, hc ▸ hmade, rfl⟩

/-- A write that succeeds has assigned keys to its items and placed their rows. -/
theorem write_eq_ok (hs : Keyed.get? c.name m.collections = some s) (hc : c.schema = s.schema)
    {items : List Item} (h : family.write c items m = (.ok (), m')) :
    ∃ keys rows, assignKeys c items m = (.ok keys, m) ∧ rowsOf s.schema items keys = .ok rows ∧
      m' = ⟨Keyed.insert c.name (s.written rows) m.collections⟩ := by
  have hdone := write_cases hs hc items
  rw [h] at hdone
  rcases hdone with ⟨hfailed, -⟩ | ⟨keys, rows, hassign, hmade, heq⟩
  · exact absurd rfl hfailed
  · exact ⟨keys, rows, hassign, hmade, (Prod.mk.inj heq).2⟩

/-- A write that succeeds was of rows that have the width of the schema. -/
theorem misfit?_of_write (hs : Keyed.get? c.name m.collections = some s)
    (hc : c.schema = s.schema) {items : List Item} {keys : List MappedId} {rows : List Row}
    (hassign : assignKeys c items m = (.ok keys, m)) (hmade : rowsOf s.schema items keys = .ok rows)
    (hwrite : family.write c items m = (.ok (), m')) : s.misfit? rows = none := by
  have hput : (Server.upsert c.name rows).toAction m = (.ok (), m') := by
    rw [← hwrite]
    show _ = (assignKeys c items >>= fun keys => _) m
    rw [Step.bind_of_ok hassign, Action.ofResult_bind_of_ok (hc ▸ hmade)]
  cases hfit : s.misfit? rows with
  | none => rfl
  | some widths =>
    have hrefused : Server.upsert c.name rows m = _ :=
      changing_of_error hs (by rw [Stored.upsert, hfit])
    rw [Call.toAction_of_error hrefused] at hput
    cases hput

/-- **What a batch leaves of a collection**: each stored id keeps its key, the rows
of the batch are there, and where keys are apart so are the rows of all other ids. -/
theorem rows_of_write (h : s.Sound) (hkind : s.schema.idKind = .integer)
    (hs : Keyed.get? c.name m.collections = some s) (hc : c.schema = s.schema) {batch : List Item}
    {keys : List MappedId} {rows : List Row}
    (hplain : ∀ item ∈ batch, Metadata.Plain item.metadata)
    (hassign : assignKeys c batch m = (.ok keys, m))
    (hmade : rowsOf s.schema batch keys = .ok rows) :
    (∀ row ∈ s.rows, ∀ row' ∈ (s.written rows).rows,
      (itemOf s.schema row').id = (itemOf s.schema row).id →
        s.schema.key row' = s.schema.key row) ∧
    (∀ item ∈ batch, ∃ row ∈ (s.written rows).rows, (itemOf s.schema row).id = item.id ∧
      ∃ key, rowOf s.schema item key = .ok row) ∧
    ((s.written rows).KeysApart → ∀ row ∈ s.rows,
      (itemOf s.schema row).id ∉ batch.map (·.id) → row ∈ (s.written rows).rows) := by
  obtain ⟨-, hkeys, hclears⟩ := assignKeys_eq_ok h hs hc hassign
  have hclears := hclears hkind
  obtain ⟨hrows, hids, hstored⟩ := rowsOf_eq_ok h hkeys hplain hmade
  obtain ⟨hstands, hread⟩ := stands_of_rowsOf h hkind hkeys hplain hmade
  have hdistinct : (rows.map s.schema.key).Nodup := nodup_keys_of_stands hstands hclears.distinct
  refine ⟨fun row hrow row' hrow' hid => ?_, fun item hitem => ?_, fun hapart row hrow hid => ?_⟩
  · rcases (mem_written h hrows hdistinct).1 hrow' with hnew | ⟨hold, -⟩
    · exact (hstored row' hnew row hrow hid.symm).symm
    · rw [h.eq_of_id hold hrow hid]
  · obtain ⟨row, hrow, hid, hkey⟩ := exists_of_forall₂ hread hitem
    exact ⟨row, (mem_written h hrows hdistinct).2 (.inl hrow), hid, hkey⟩
  · refine (mem_written h hrows hdistinct).2 (.inr ⟨hrow, fun hclaimed => ?_⟩)
    obtain ⟨row', hrow', hkey⟩ := List.mem_map.1 hclaimed
    obtain ⟨claim, hclaim, hstands'⟩ := exists_of_forall₂ hstands hrow'
    -- the key of the row would be claimed for its own id
    have howner := id_of_claimed h hkind hrows hdistinct hstands hclears hapart hrow hclaim
      (hkey.symm.trans hstands'.key)
    rw [howner, ← hstands'.id, ← hids] at hid
    exact hid (List.mem_map_of_mem hrow')

/-- Adding a batch has left the other rows as they were, and every item of the
batch is read by its id, with the metadata it was given. -/
structure Intact (name : String) (items : List Item) (s s' : Stored) (t' : Session Memory) :
    Prop where
  others : ∀ row ∈ s.rows, (itemOf s.schema row).id ∉ items.map (·.id) → row ∈ s'.rows
  readable : ∀ item ∈ items, ∃ shown, family.getItems name [item.id] t' = (.ok [shown], t') ∧
    shown.id = item.id ∧
    ∀ field, Keyed.get? field shown.metadata = Keyed.get? field item.metadata

/-- A batch whose rows are there, under keys that are apart, leaves a collection
intact. -/
theorem intact_of_rows {s' : Stored} {t' : Session Memory} (ht : t'.server.Sound)
    (hconn : t'.connected = true) (hheld : Keyed.get? name t'.server.collections = some s')
    (hkind : s'.schema.idKind = .integer) (hapart : s'.KeysApart) {items batch : List Item}
    (hbare : batch.map Item.bare = items.map Item.bare)
    (hplain : ∀ item ∈ batch, Metadata.Plain item.metadata)
    (hothers : ∀ row ∈ s.rows, (itemOf s.schema row).id ∉ batch.map (·.id) → row ∈ s'.rows)
    (hread : ∀ item ∈ batch, ∃ row ∈ s'.rows, (itemOf s'.schema row).id = item.id ∧
      ∃ key, rowOf s'.schema item key = .ok row) :
    Intact name items s s' t' where
  others := by
    have hids : batch.map (·.id) = items.map (·.id) := Item.map_eq_of_bare (fun _ => rfl) hbare
    rwa [hids] at hothers
  readable := by
    intro item hitem
    obtain ⟨filled, hfilled, hid, hmeta⟩ := Item.exists_of_bare hbare.symm hitem
    obtain ⟨row, hrow, hrowid, key, hmade⟩ := hread filled hfilled
    have hshown : (itemOf s'.schema row).id = item.id := hrowid.trans hid
    have hgot := getItems_of_row ht hconn hheld hkind hapart hrow
    refine ⟨itemOf s'.schema row, hshown ▸ hgot, hshown, fun field => ?_⟩
    rw [get?_metadata_rowOf (hplain filled hfilled) hmade, hmeta]

/-- **Rows under integer keys are kept apart by additions, while their keys are.**
Take any session that calls have led to, and a collection with integer keys. Its
rows have distinct keys and distinct ids. An addition that fails changes nothing
on the server. One that succeeds changes no other collection and leaves every
stored id under the key that it had; and if no two keys are then one as binary64
values, it has changed no row of an id outside the batch, and every item of the
batch is read by its id. -/
theorem additions_keep_rows_apart {t t' : Session Memory} (ht : (Connection.milvus t).Reached)
    (hheld : Keyed.get? name t.server.collections = some s) (hkind : s.schema.idKind = .integer)
    {items : List Item} (hplain : ∀ item ∈ items, Metadata.Plain item.metadata) {r : Result Unit}
    (hadd : family.addItems name items t = (r, t')) :
    (s.rows.map s.schema.key).Nodup ∧ (s.rows.map fun row => (itemOf s.schema row).id).Nodup ∧
      (r ≠ .ok () → t'.server = t.server) ∧
      (r = .ok () → ∃ rows, storage.Changed t.server t'.server name (storage.withRows s rows) ∧
        (∀ row ∈ s.rows, ∀ row' ∈ rows, (itemOf s.schema row').id = (itemOf s.schema row).id →
          s.schema.key row' = s.schema.key row) ∧
        ((storage.withRows s rows).KeysApart →
          Intact name items s (storage.withRows s rows) t')) := by
  have hsound : t.server.Sound := ht.sound
  have h : s.Sound := hsound name s hheld
  have hsound' : t'.server.Sound := by
    have hkept := Family.keeps_addItems readsOnly guards name hplain t hsound
    rwa [hadd] at hkept
  refine ⟨h.distinct, h.ids, ?_⟩
  have hcases := Family.addItems_cases readsOnly name items t
  rw [hadd] at hcases
  rcases hcases with ⟨hserver, hnone⟩ |
    ⟨c, batch, -, hattach, hbare, -, hwrite, hconn'⟩
  · -- nothing was written
    refine ⟨fun _ => hserver, fun hok => ⟨s.rows, ⟨?_, fun _ _ => by rw [hserver]⟩, ?_, ?_⟩⟩
    · rw [hserver]
      exact hheld
    · intro row hrow row' hrow' hid
      rw [h.eq_of_id hrow' hrow hid]
    · intro _
      rw [hnone hok]
      exact ⟨fun _ hrow _ => hrow, nofun⟩
  · obtain rfl := opened_eq ⟨hsound, hattach, hheld⟩
    have hplain' : ∀ item ∈ batch, Metadata.Plain item.metadata :=
      Item.forall_of_bare hbare hplain
    have hdone := write_cases (c := ⟨name, s.schema⟩) hheld rfl batch
    rw [hwrite] at hdone
    rcases hdone with ⟨hfailed, hserver⟩ | ⟨keys, rows, hassign, hmade, heq⟩
    · exact ⟨fun _ => hserver, fun hok => absurd hok hfailed⟩
    obtain ⟨rfl, hserver⟩ := Prod.mk.inj heq
    obtain ⟨hkeep, hread, hothers⟩ :=
      rows_of_write (c := ⟨name, s.schema⟩) h hkind hheld rfl hplain' hassign hmade
    have hchanged : storage.Changed t.server t'.server name (s.written rows) := by
      rw [hserver]
      exact changed_insert _ _ _
    refine ⟨fun hne => absurd rfl hne, fun _ => ⟨_, hchanged, hkeep, fun hapart => ?_⟩⟩
    exact intact_of_rows hsound' hconn' hchanged.here hkind hapart hbare hplain'
      (hothers hapart) hread

/-! ## Additions under integer keys -/

/-- The keys and ids of the rows after items of some ids have been added. -/
def rowsAfterAdding (ids : List String) (t : Session Memory) : Option (List (BackendId × String)) :=
  match family.addItems "docs" (ids.map sample) t with
  | (.ok (), t') => (Keyed.get? "docs" t'.server.collections).map fun s =>
      s.rows.map fun row => (keyOf s.schema row, (itemOf s.schema row).id)
  | _ => none

theorem of_rowsAfterAdding {ids : List String} {t : Session Memory}
    {found : List (BackendId × String)} (h : rowsAfterAdding ids t = some found) :
    ∃ t' s', family.addItems "docs" (ids.map sample) t = (.ok (), t') ∧
      Keyed.get? "docs" t'.server.collections = some s' ∧
      s'.rows.map (fun row => (keyOf s'.schema row, (itemOf s'.schema row).id)) = found := by
  rw [rowsAfterAdding] at h
  split at h
  · rename_i t' hadd
    obtain ⟨s', hheld, hrows⟩ := Option.map_eq_some_iff.1 h
    exact ⟨t', s', hadd, hheld, hrows⟩
  · cases h

theorem plain_sample (ids : List String) :
    ∀ item ∈ ids.map sample, Metadata.Plain item.metadata := by
  intro item hitem
  obtain ⟨id, -, rfl⟩ := List.mem_map.1 hitem
  rfl

/-- A name with a number at its end and one without are added to a number and a
name, under keys that are apart. -/
theorem additions_keep_rows_apart_of_names :
    ∃ (s : Stored) (t' : Session Memory), (Connection.milvus (holding ["7", "doc_5"])).Reached ∧
      Keyed.get? "docs" (holding ["7", "doc_5"]).server.collections = some s ∧
      s.schema.idKind = .integer ∧
      (∀ item ∈ ["doc_6", "note"].map sample, Metadata.Plain item.metadata) ∧
      family.addItems "docs" (["doc_6", "note"].map sample) (holding ["7", "doc_5"]) =
        (.ok (), t') ∧
      (s.rows.map s.schema.key).Nodup ∧ (s.rows.map fun row => (itemOf s.schema row).id).Nodup ∧
      ∃ rows, storage.Changed (holding ["7", "doc_5"]).server t'.server "docs"
          (storage.withRows s rows) ∧
        (∀ row ∈ s.rows, ∀ row' ∈ rows, (itemOf s.schema row').id = (itemOf s.schema row).id →
          s.schema.key row' = s.schema.key row) ∧
        (storage.withRows s rows).KeysApart ∧
        Intact "docs" (["doc_6", "note"].map sample) s (storage.withRows s rows) t' := by
  have hrun : rowsAfterAdding ["doc_6", "note"] (holding ["7", "doc_5"]) =
      some [(.integer 7, "7"), (.integer 5, "doc_5"), (.integer 6, "doc_6"),
        (.integer 1, "note")] := by decide +kernel
  have hbefore : (Keyed.get? "docs" (holding ["7", "doc_5"]).server.collections).map
      (fun s => s.schema.idKind) = some .integer := by decide +kernel
  obtain ⟨s, hheld, hkind⟩ := Option.map_eq_some_iff.1 hbefore
  obtain ⟨t', s', hadd, hheld', hrows⟩ := of_rowsAfterAdding hrun
  have hreached := reached_holding ["7", "doc_5"]
  obtain ⟨hkeys, hids, -, hdone⟩ :=
    additions_keep_rows_apart hreached hheld hkind (plain_sample _) hadd
  obtain ⟨rows, hchanged, hkeep, hintact⟩ := hdone rfl
  have hfound : s'.rows.map (keyOf s'.schema) = [.integer 7, .integer 5, .integer 6, .integer 1] := by
    have hfst := congrArg (List.map Prod.fst) hrows
    rwa [List.map_map] at hfst
  have hapart : (storage.withRows s rows).KeysApart := by
    obtain rfl := Option.some.inj (hchanged.here.symm.trans hheld')
    refine keysApart_of_lt fun row hrow k hk => ?_
    have hmem := List.mem_map_of_mem (f := keyOf (storage.withRows s rows).schema) hrow
    rw [hfound, hk] at hmem
    simp only [List.mem_cons, BackendId.integer.injEq, List.not_mem_nil, or_false] at hmem
    omega
  exact ⟨s, t', hreached, hheld, hkind, plain_sample _, hadd, hkeys, hids, rows, hchanged, hkeep,
    hapart, hintact hapart⟩

/-- Two integers with one nearest binary64 value: the number of an item added last
is the key of another item, whose row is replaced. -/
theorem addition_replaces_row_of_near_key :
    ∃ (t t' : Session Memory) (s s' : Stored), (Connection.milvus t).Reached ∧
      Keyed.get? "docs" t.server.collections = some s ∧ s.schema.idKind = .integer ∧
      (storage.items s).map (·.id) = ["9007199254740992", "x9007199254740993"] ∧
      family.addItems "docs" [sample "9007199254740993"] t = (.ok (), t') ∧
      Keyed.get? "docs" t'.server.collections = some s' ∧
      s'.rows.map (fun row => (itemOf s'.schema row).id) =
        ["9007199254740992", "9007199254740993"] := by
  have hrun : rowsAfterAdding ["9007199254740993"]
      (holding ["9007199254740992", "x9007199254740993"]) =
      some [(.integer 9007199254740992, "9007199254740992"),
        (.integer 9007199254740993, "9007199254740993")] := by decide +kernel
  have hbefore : (Keyed.get? "docs"
      (holding ["9007199254740992", "x9007199254740993"]).server.collections).map
      (fun s => (s.schema.idKind, (storage.items s).map (·.id))) =
      some (.integer, ["9007199254740992", "x9007199254740993"]) := by decide +kernel
  obtain ⟨s, hheld, hfacts⟩ := Option.map_eq_some_iff.1 hbefore
  obtain ⟨hkind, hids⟩ := Prod.mk.inj hfacts
  obtain ⟨t', s', hadd, hheld', hrows⟩ := of_rowsAfterAdding hrun
  refine ⟨_, t', s, s', reached_holding _, hheld, hkind, hids, hadd, hheld', ?_⟩
  have hsnd := congrArg (List.map Prod.snd) hrows
  rwa [List.map_map] at hsnd

end Milvus

end VectorBridge
