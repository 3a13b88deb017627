import VectorBridge.Postgres.Store
import VectorBridge.Proofs.Family.Storage
/-!
# Rows of a PostgreSQL database

A row stands under the id of its item, in ascending order, so ids are distinct
and a removal of ids selects the rows of these ids and no others.
-/

namespace VectorBridge

namespace Postgres

/-- The tables of a database. -/
def storage : Storage Memory Table (String × Item) SqlWhere where
  serverName := id
  held? m name := Keyed.get? name m.tables
  rows := Table.rows
  withRows t rows := { t with rows }
  itemOf _ e := e.2
  holds w e := w.holds e.2
  selects _ ids e := ids.contains e.1

/-- The rows stand in ascending order under the ids of their items. -/
structure Table.Ordered (t : Table) : Prop where
  ascending : t.rows.Ascending
  keyed : ∀ e ∈ t.rows, e.2.id = e.1

/-- Every table is in order. -/
def Memory.Ordered (m : Memory) : Prop := ∀ name t, Keyed.get? name m.tables = some t → t.Ordered

variable {m m' : Memory} {name : String} {t : Table}

theorem Memory.Ordered.insert (h : m.Ordered) (name : String) (ht : t.Ordered) :
    Memory.Ordered ⟨Keyed.insert name t m.tables⟩ :=
  Keyed.forall_insert h ht

theorem Memory.Ordered.erase (h : m.Ordered) (name : String) :
    Memory.Ordered ⟨Keyed.erase name m.tables⟩ :=
  Keyed.forall_erase h name

theorem Table.Ordered.filter (h : t.Ordered) (p : String × Item → Bool) :
    Table.Ordered { t with rows := t.rows.filter p } where
  ascending := h.ascending.filter p
  keyed e he := h.keyed e (List.mem_filter.1 he).1

theorem Table.Ordered.upsert (h : t.Ordered) (items : List Item) :
    Table.Ordered
      { t with rows := items.foldl (fun m item => Keyed.insert item.id item m) t.rows } := by
  induction items generalizing t with
  | nil => exact h
  | cons item items ih =>
    refine ih (t := { t with rows := Keyed.insert item.id item t.rows })
      ⟨h.ascending.insert item.id item, fun e he => ?_⟩
    rcases Keyed.mem_of_mem_insert he with rfl | he
    · rfl
    · exact h.keyed e he

/-- A change of a table that keeps it in order. -/
theorem keeps_changing {f : Table → Except TransportError Table}
    (hf : ∀ t t', t.Ordered → f t = .ok t' → t'.Ordered) (name : String) :
    Step.Keeps Memory.Ordered (Memory.changing name f) := by
  intro m hm
  unfold Memory.changing Memory.find?
  cases hget : Keyed.get? name m.tables with
  | none => exact hm
  | some t =>
    simp only
    cases hft : f t with
    | error e => exact hm
    | ok t' => exact hm.insert name (hf t t' (hm name t hget) hft)

theorem changed_insert (m : Memory) (name : String) (t : Table) :
    storage.Changed m ⟨Keyed.insert name t m.tables⟩ name t :=
  ⟨Keyed.get?_insert_self _ _ _, fun _ hne => Keyed.get?_insert_of_ne hne.symm _ _⟩

/-- What a change of a table does when it succeeds. -/
theorem changed_of_changing {f : Table → Table} (ht : Keyed.get? name m.tables = some t)
    (h : Memory.changing name (fun t => .ok (f t)) m = (.ok (), m')) :
    storage.Changed m m' name (f t) := by
  unfold Memory.changing Memory.find? at h
  rw [ht] at h
  cases h
  exact changed_insert m name (f t)

theorem leaves_reading {α : Type} (name : String) (f : Table → α) :
    Step.Leaves (Memory.reading name f) := fun _ => rfl

theorem reading_apply {α : Type} (ht : Keyed.get? name m.tables = some t) (f : Table → α) :
    Memory.reading name f m = (.ok (f t), m) := by
  simp [Memory.reading, Memory.find?, ht, Except.map]

/-! ## The questions of the family -/

theorem readsOnly : family.ReadsOnly where
  ping := Step.leaves_pure ()
  names := fun _ => rfl
  count name := leaves_reading name _
  attach name := Step.leaves_pure name
  inspect name := leaves_reading name _
  declaredWidth _ := leaves_reading _ _
  probedWidth _ := leaves_reading _ _
  fetch _ _ := (leaves_reading _ _).bind fun _ => Step.leaves_pure _
  sample _ _ := leaves_reading _ _
  fetchAll _ _ m := Session.toAction_snd _ m
  readPage _ _ _ := Step.Leaves.bind (fun _ => rfl) fun _ =>
    Step.Leaves.bind (fun m => Session.toAction_snd _ m) fun _ _ => rfl
  size name := leaves_reading name _
  nearest name _ _ _ _ := leaves_reading name _

theorem guards : family.Guards Memory.Ordered fun _ => True where
  create _ name width metric m hm := by
    simp only [family, Memory.create]
    split
    · exact hm
    · exact hm.insert name ⟨List.Pairwise.nil, fun _ he => by cases he⟩
  drop name m hm := by
    simp only [family, Memory.drop]
    split
    · exact hm
    · exact hm.erase name
  eraseIds name ids := by
    refine keeps_changing (fun t t' ht h => ?_) name
    cases h
    simp only [Keyed.foldl_erase]
    exact ht.filter _
  eraseWhere name w := keeps_changing (fun t t' ht h => by cases h; exact ht.filter _) name
  write {name m h items} hm _ _ _ := by
    simp only [family, Session.toAction_snd]
    refine keeps_changing (fun t t' ht h => ?_) h m hm
    split at h
    · cases h
    · cases h
      exact ht.upsert items
  plain_fetch _ _ _ _ _ := trivial

/-- A listing is of the rows that satisfy the fragment. -/
theorem passing_eq (t : Table) (filter : Option SqlWhere) :
    t.passing filter = storage.passing t filter := List.filter_map

/-- What is read from is there. -/
theorem held_of_reading {α : Type} {f : Table → α} {a : α}
    (h : (Memory.reading name f).toAction m = (.ok a, m')) :
    ∃ t, storage.held? m (storage.serverName name) = some t := by
  have hread := Call.toAction_eq_ok_iff.1 h
  show ∃ t, Keyed.get? name m.tables = some t
  cases ht : Keyed.get? name m.tables with
  | none =>
    simp only [Memory.reading, Call.read_apply, Memory.find?, ht, Except.map] at hread
    cases hread
  | some t => exact ⟨t, rfl⟩

theorem reading_of_opened {h : String} {α : Type}
    (ho : storage.Opened family Memory.Ordered m name h t) (f : Table → α) :
    (Memory.reading name f).toAction m = (.ok (f t), m) :=
  Call.toAction_of_ok (reading_apply (show Keyed.get? name m.tables = some t from ho.held) f)

/-- **The questions of the family do to the rows what they are to do.** -/
theorem lawful : storage.Lawful family Memory.Ordered where
  rows_withRows _ _ := rfl
  withRows_rows _ := rfl
  itemOf_withRows _ _ := rfl
  reads := readsOnly
  held_of_readPage := by
    intro name m h hattach fragment request page m' hread
    cases hattach
    obtain ⟨offset, answer, m₁, hread⟩ := Storage.read_of_pageAt (g := id) hread
    exact held_of_reading hread
  held_of_fetchAll := by
    intro name m h hattach fragment items m' hread
    cases hattach
    exact held_of_reading hread
  attach_of_held _ := ⟨_, rfl⟩
  nodup := by
    intro m name t hm ht
    have hids : (storage.items t).map (·.id) = Keyed.keys t.rows := by
      rw [Storage.items, List.map_map]
      exact List.map_congr_left (hm name t ht).keyed
    rw [hids]
    exact (hm name t ht).ascending.nodup_keys
  drains_readPage := by
    intro m name h t ho fragment sizes items m' hdrain
    cases ho.attach
    refine Storage.drains_pageAt (fun size offset =>
      (Memory.reading name fun t => ((t.passing fragment).drop offset).take size).toAction)
      id (fun _ _ => rfl) ?_ hdrain
    intro size offset answer m₁ hread
    rw [reading_of_opened ho] at hread
    cases hread
    exact ⟨by rw [passing_eq]; rfl, rfl⟩
  readPage_of_nil := by
    intro m name h t ho fragment hnone
    cases ho.attach
    refine Storage.pageAt_nil (fun offset =>
      (Memory.reading name fun t => ((t.passing fragment).drop offset).take 1).toAction)
      id (reading_of_opened ho _) ?_
    rw [passing_eq, hnone]
    rfl
  fetchAll_eq := by
    intro m name h t ho fragment items m' hread
    cases ho.attach
    obtain ⟨hitems, -⟩ := Prod.mk.inj
      ((reading_of_opened ho _).symm.trans hread)
    rw [← Except.ok.inj hitems]
    exact passing_eq t fragment
  fetchAll_of_le := by
    intro m name h t m₂ h₂ t₂ _ ho₂ fragment items _ _
    cases ho₂.attach
    exact ⟨_, reading_of_opened ho₂ _⟩
  eraseWhere_ok := by
    intro m name h t ho fragment m' herase
    cases ho.attach
    exact changed_of_changing ho.held herase
  eraseIds_ok := by
    intro m name h t ho ids m' herase
    cases ho.attach
    have hchanged := changed_of_changing ho.held herase
    rw [Keyed.foldl_erase] at hchanged
    exact hchanged
  selects_nil _ _ := rfl
  selects_of_mem := by
    intro m name t hm ht e he ids hid
    show ids.contains e.1 = true
    rw [← (hm name t ht).keyed e he]
    exact List.contains_iff_mem.2 hid

/-- A removal of ids selects no other row. -/
theorem mem_of_selects (ht : t.Ordered) {ids : List String} {e : String × Item}
    (he : e ∈ t.rows) (h : storage.selects t ids e = true) : (storage.itemOf t e).id ∈ ids := by
  show e.2.id ∈ ids
  rw [ht.keyed e he]
  exact List.contains_iff_mem.1 h

end Postgres

end VectorBridge
