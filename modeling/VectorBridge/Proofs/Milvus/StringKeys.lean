import VectorBridge.Proofs.Milvus.Overwriting
/-!
# Rows under string keys

Where keys are strings, a row stands under the id of its item, whatever the metadata
of the item claim. Calls keep it so with items of all kinds, so a batch that is
written puts each of its rows where a read by id looks for it.
-/

namespace VectorBridge

namespace Milvus

/-- Rows under string keys. -/
def Schema.Strings (S : Schema) (rows : List Row) : Prop :=
  ∀ row ∈ rows, ∃ id, S.key row = some (.str id)

/-- The fields of the schema are told apart, and keys that should be strings are. -/
structure Stored.Filed (s : Stored) : Prop where
  apart : s.schema.Apart
  keys : s.schema.idKind ≠ .integer → s.schema.Strings s.rows

/-- Every collection is filed. -/
def Memory.Filed (m : Memory) : Prop :=
  ∀ name s, Keyed.get? name m.collections = some s → s.Filed

variable {m m' : Memory} {name : String} {s : Stored} {c : Opened} {S : Schema}

theorem Stored.Sound.filed (h : s.Sound) : s.Filed where
  apart := h.apart
  keys hkind row hrow := ((h.keys row hrow).of_ne_integer hkind).1

theorem Memory.Prepared.filed (h : m.Prepared) : m.Filed := fun name s hs =>
  (h.sound name s hs).filed

theorem Stored.Filed.filter (h : s.Filed) (p : Row → Bool) :
    Stored.Filed { s with rows := s.rows.filter p } where
  apart := h.apart
  keys hkind row hrow := h.keys hkind row (List.mem_filter.1 hrow).1

/-! ## Batches of rows -/

section Batch

variable {items : List Item} {keys : List MappedId} {rows : List Row}

/-- Each item of a batch is made a row under its key. -/
theorem forall₂_rowOf {P : Item → MappedId → Prop} (hkeys : List.Forall₂ P items keys)
    (hrows : rowsOf S items keys = .ok rows) :
    List.Forall₂ (fun item row => ∃ key, P item key ∧ rowOf S item key = .ok row) items rows := by
  induction hkeys generalizing rows with
  | nil =>
    cases hrows
    exact .nil
  | cons hkey _ ih =>
    rw [rowsOf] at hrows
    split at hrows
    · cases hrows
    · rename_i row hrow
      split at hrows
      · cases hrows
      · rename_i rest hrest
        cases hrows
        exact .cons ⟨_, hkey, hrow⟩ (ih hrest)

/-- Where keys are strings, the items of a batch stand under their ids, and the server
is not asked. -/
theorem maps_of_assignKeys (hS : c.schema.Apart) (hkind : c.schema.idKind ≠ .integer)
    (h : assignKeys c items m = (.ok keys, m')) :
    List.Forall₂ (fun item key => c.schema.Maps item.id key) items keys := by
  obtain ⟨mapped, m₁, hmapped, hassign⟩ := Step.bind_eq_ok_iff.1 h
  obtain ⟨hmap, rfl⟩ := Prod.mk.inj hmapped
  rw [if_pos hkind] at hassign
  cases hassign
  exact maps_mapFrom hS.kind (fun hk => absurd hk hkind) hmap

/-- Where keys are strings, the row of an item stands under its id. -/
theorem key_rowOf (hS : S.Apart) (hkind : S.idKind ≠ .integer) {item : Item} {key : MappedId}
    {row : Row} (hmaps : S.Maps item.id key) (h : rowOf S item key = .ok row) :
    S.key row = some (.str item.id) := by
  have hstored := (get?_rowOf_given hS h).1
  unfold Schema.Maps at hmaps
  split at hmaps
  · rename_i hk
    exact absurd hk hkind
  · rw [hmaps] at hstored
    exact hstored

/-- What is there after rows have been placed was placed, or was there. -/
theorem mem_or_mem_of_written {row : Row} (h : row ∈ (s.written rows).rows) :
    row ∈ rows ∨ row ∈ s.rows := by
  simp only [Stored.written] at h
  induction rows using List.reverseRecOn with
  | nil => exact .inr h
  | append_singleton rest r ih =>
    rw [List.foldl_append, List.foldl_cons, List.foldl_nil, place_eq] at h
    rcases placeBy.eq_or_mem_of_mem h with rfl | hrest
    · exact .inl (List.mem_append_right _ (List.mem_singleton_self _))
    · exact (ih hrest).imp_left (List.mem_append_left _)

/-- A batch that is written leaves a collection filed. -/
theorem Stored.Filed.written (h : s.Filed) (hc : c.schema = s.schema)
    (hassign : assignKeys c items m = (.ok keys, m'))
    (hmade : rowsOf s.schema items keys = .ok rows) : (s.written rows).Filed where
  apart := h.apart
  keys := by
    intro hkind row hrow
    rcases mem_or_mem_of_written hrow with hnew | hold
    · have hmaps := maps_of_assignKeys (hc ▸ h.apart) (hc ▸ hkind) hassign
      obtain ⟨item, -, key, hmap, hof⟩ := exists_of_forall₂ (forall₂_rowOf hmaps hmade).flip hnew
      exact ⟨item.id, key_rowOf h.apart hkind (hc ▸ hmap) hof⟩
    · exact h.keys hkind row hold

end Batch

/-- Calls keep collections filed, whatever the metadata of the items. -/
theorem guards_filed : (family (τ := Memory)).Guards Memory.Filed fun _ => True where
  create _ name width metric m hm := by
    show Memory.Filed (Memory.create name width metric m).2
    unfold Memory.create
    split
    · exact hm
    · exact Keyed.forall_insert hm ⟨apart_plain _ _, fun _ _ hrow => absurd hrow List.not_mem_nil⟩
  drop name := by
    refine Step.Keeps.bind (leaves_openCollection name).keeps fun _ m hm => ?_
    exact Keyed.forall_erase hm name
  eraseIds c ids := by
    show Step.Keeps Memory.Filed (deleteAll (τ := Memory) c (idSelectors c.schema ids))
    induction idSelectors c.schema ids with
    | nil => exact (Step.leaves_pure _).keeps
    | cons e rest ih =>
      refine Step.Keeps.bind (fun m hm => forall_changing hm fun s s' hs h => ?_) fun _ => ih
      cases h
      exact (hm _ s hs).filter _
  eraseWhere c e m hm := by
    refine forall_changing hm fun s s' hs h => ?_
    cases h
    exact (hm _ s hs).filter _
  write {name m c items} hm hattach _ _ := by
    obtain ⟨s, hs, rfl⟩ := attach_eq_ok hattach
    have hdone := write_cases (c := ⟨name, s.schema⟩) hs rfl items
    rcases hdone with ⟨-, hsame⟩ | ⟨keys, rows, hassign, hmade, heq⟩
    · rw [hsame]
      exact hm
    · rw [heq]
      exact Keyed.forall_insert hm ((hm name s hs).written rfl hassign hmade)
  plain_fetch _ _ _ _ _ := trivial

/-! ## Reading a row -/

/-- A key that is a string is the id that is asked for, or another. -/
theorem holds_primaryIn_str {row : Row} {id : String} (hkey : S.key row = some (.str id))
    (asked : String) :
    (Expr.primaryIn S.primaryField [.str asked]).holds row = decide (id = asked) := by
  simp only [Expr.primaryIn, holds_isIn, Field.name]
  rw [show Keyed.get? S.primaryField row = some (.str id) from hkey, Option.any_some,
    show [Literal.str asked] = [asked].map Literal.str from rfl, any_str]
  simp

/-- The key of a row as a text. -/
def Schema.keyText (S : Schema) (row : Row) : String := (keyOf S row).text

theorem keyText_of_str {row : Row} {id : String} (h : S.key row = some (.str id)) :
    S.keyText row = id := congrArg BackendId.text (keyOf_str h)

/-- The key of a row that is placed finds it, and every other key what it found before. -/
theorem find?_place {row : Row} {rows : List Row} (hrow : ∃ id, S.key row = some (.str id))
    (hrows : S.Strings rows) (id : String) :
    (place S.primaryField row rows).find? (fun r => S.keyText r = id) =
      if S.keyText row = id then some row else rows.find? fun r => S.keyText r = id := by
  rw [place_eq]
  refine placeBy.find?_eq (fun r hr => ?_) id
  obtain ⟨a, ha⟩ := hrows r hr
  obtain ⟨b, hb⟩ := hrow
  rw [show Keyed.get? S.primaryField r = _ from ha, show Keyed.get? S.primaryField row = _ from hb,
    keyText_of_str ha, keyText_of_str hb, sameKey, beq_iff_eq]

theorem Schema.Strings.place {row : Row} {rows : List Row} (hrows : S.Strings rows)
    (hrow : ∃ id, S.key row = some (.str id)) : S.Strings (place S.primaryField row rows) := by
  intro r hr
  rw [place_eq] at hr
  rcases placeBy.eq_or_mem_of_mem hr with rfl | hold
  · exact hrow
  · exact hrows r hold

/-- A row that is written is found under its key. -/
theorem find?_written (hstored : s.schema.Strings s.rows) {rows : List Row}
    (hrows : s.schema.Strings rows) (hdistinct : (rows.map s.schema.keyText).Nodup) {row : Row}
    (hrow : row ∈ rows) :
    (s.written rows).rows.find? (fun r => s.schema.keyText r = s.schema.keyText row) =
      some row := by
  let look (id : String) (rows : List Row) := rows.find? fun r => s.schema.keyText r = id
  have hput : ∀ {a : Row} {l : List Row}, (∃ id, s.schema.key a = some (.str id)) →
      s.schema.Strings l → s.schema.Strings (place s.schema.primaryField a l) ∧
        look (s.schema.keyText a) (place s.schema.primaryField a l) = some a ∧
          ∀ id, s.schema.keyText a ≠ id → look id (place s.schema.primaryField a l) = look id l :=
    fun ha hl => ⟨hl.place ha, (find?_place ha hl _).trans (if_pos rfl),
      fun id hne => (find?_place ha hl id).trans (if_neg hne)⟩
  exact lookup_foldl_put look hput hrows hstored hdistinct hrow

/-- Of rows under string keys, an id asks for the first one under it. -/
theorem take_filter_primaryIn {rows : List Row} (hrows : S.Strings rows) (asked : String) :
    (rows.filter (Expr.primaryIn S.primaryField [.str asked]).holds).take 1 =
      (rows.find? fun r => S.keyText r = asked).toList := by
  have hfilter : rows.filter (Expr.primaryIn S.primaryField [.str asked]).holds =
      rows.filter fun r => S.keyText r = asked := by
    refine List.filter_congr fun r hr => ?_
    obtain ⟨id, hid⟩ := hrows r hr
    rw [holds_primaryIn_str hid, keyText_of_str hid]
  rw [hfilter, List.take_one, List.head?_filter]

/-- **Where keys are strings, the rows of a batch are fetched by the ids of its items.** -/
theorem fetch_of_written (h : s.Filed) (hkind : s.schema.idKind ≠ .integer) {items : List Item}
    {rows : List Row} {P : Item → Row → Prop} (hmade : List.Forall₂ P items rows)
    (hkeys : ∀ item row, P item row → s.schema.key row = some (.str item.id))
    (hids : (items.map (·.id)).Nodup)
    (hheld : Keyed.get? name m.collections = some (s.written rows)) {item : Item}
    (hitem : item ∈ items) :
    ∃ row ∈ rows, P item row ∧
      family.fetch ⟨name, s.schema⟩ [item.id] m = (.ok [itemOf s.schema row], m) := by
  obtain ⟨row, hrow, hP⟩ := exists_of_forall₂ hmade hitem
  have hrows : s.schema.Strings rows := by
    intro row hrow
    obtain ⟨item, -, hP⟩ := exists_of_forall₂ hmade.flip hrow
    exact ⟨item.id, hkeys item row hP⟩
  have hsame : rows.map s.schema.keyText = items.map (·.id) := by
    clear hids hheld hitem hrow hrows
    induction hmade with
    | nil => rfl
    | cons hP _ ih => rw [List.map_cons, List.map_cons, keyText_of_str (hkeys _ _ hP), ih]
  have hstrings : s.schema.Strings (s.written rows).rows := fun r hr =>
    (mem_or_mem_of_written hr).elim (hrows r) (h.keys hkind r)
  have hfind := find?_written (h.keys hkind) hrows (hsame ▸ hids) hrow
  have hfound : ((s.written rows).rows.filter
      (Expr.primaryIn s.schema.primaryField [.str item.id]).holds).take 1 = [row] := by
    rw [take_filter_primaryIn hstrings, ← keyText_of_str (hkeys item row hP), hfind]
    rfl
  have hselectors : idSelectors s.schema [item.id] =
      [Expr.primaryIn s.schema.primaryField [.str item.id]] := if_pos hkind
  have hasked := selectAll_apply (c := ⟨name, s.schema⟩) hheld rfl (by decide : 1 ≤ window)
    (idSelectors s.schema [item.id])
  have hanswer : (idSelectors s.schema [item.id]).flatMap (fun e =>
      (((s.written rows).rows.filter e.holds).take 1).map (itemOf s.schema)) =
      [itemOf s.schema row] := by
    rw [hselectors, List.flatMap_singleton, hfound]
    rfl
  have hordered : Batch.inOrderOf [item.id] [itemOf s.schema row] = [itemOf s.schema row] :=
    List.perm_singleton.1 (Batch.inOrderOf_perm _ _)
  refine ⟨row, hrow, hP, (Step.bind_of_ok hasked _).trans ?_⟩
  exact congrArg (fun found => (Except.ok found, m))
    ((congrArg (Batch.inOrderOf [item.id]) hanswer).trans hordered)

end Milvus

end VectorBridge
