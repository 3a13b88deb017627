import Mathlib.Data.List.Nodup
import VectorBridge.Columnar.Store
import VectorBridge.Proofs.Adapter
import VectorBridge.Proofs.Drain
import VectorBridge.Proofs.Filter.Compiling
import VectorBridge.Proofs.Placing
import VectorBridge.Proofs.Session
/-!
# Removing what a listing of a table shows

A table is read whole, filtered by the client and written whole, by a listing
and by a removal alike. The two meet at ids: a removal takes the rows whose ids
the filter has found, and as a write replaces the row of an id, no id is found
twice.
-/

namespace VectorBridge

namespace Columnar

open Session

/-! ## Writing rows -/

/-- Of distinct rows the last one of an id is the only one. -/
theorem replaceLast_eq {rows : List Row} (h : (rows.map (·.id)).Nodup) (row : Row) :
    replaceLast row rows =
      if row.id ∈ rows.map (·.id) then some (placeBy (fun r => r.id = row.id) row rows)
      else none := by
  -- the last row of the id is replaced, so the rest is tried before the head
  induction rows with
  | nil => rfl
  | cons r rest ih =>
    rw [List.map_cons, List.nodup_cons] at h
    rw [replaceLast, ih h.2, placeBy]
    by_cases hrest : row.id ∈ rest.map (·.id)
    · have hne : r.id ≠ row.id := fun heq => h.1 (heq ▸ hrest)
      simp [hrest, hne]
    · by_cases heq : r.id = row.id
      · simp [hrest, heq]
      · simp [hrest, heq, Ne.symm heq]

/-- A row is put in place of the one with its id, or at the end. -/
theorem place_eq_placeBy {rows : List Row} (h : (rows.map (·.id)).Nodup) (row : Row) :
    place rows row = placeBy (fun r => r.id = row.id) row rows := by
  rw [place, replaceLast_eq h]
  split
  · rfl
  · rename_i hnew
    rw [Option.getD_none, placeBy.eq_append (fun _ _ => decide_eq_true_iff) hnew]

theorem nodup_place {rows : List Row} (h : (rows.map (·.id)).Nodup) (row : Row) :
    ((place rows row).map (·.id)).Nodup := by
  rw [place_eq_placeBy h]
  exact placeBy.nodup (fun _ _ => decide_eq_true_iff) h

/-- No two rows have one id. -/
def Table.Distinct (t : Table) : Prop := (t.rows.map (·.id)).Nodup

/-- The rows of every table are distinct. -/
def Memory.Distinct (m : Memory) : Prop := ∀ name t, Keyed.get? name m.tables = some t → t.Distinct

variable {t : Table} {m : Memory} {name : String}

theorem Table.Distinct.upsert (h : t.Distinct) (rows : List Row) : (t.upsert rows).Distinct := by
  induction rows generalizing t with
  | nil => exact h
  | cons row rows ih => exact ih (t := { t with rows := place t.rows row }) (nodup_place h row)

theorem Table.Distinct.remove (h : t.Distinct) (ids : List String) : (t.remove ids).Distinct :=
  List.Nodup.sublist (List.filter_sublist.map _) h

theorem Table.Distinct.nodup_items (h : t.Distinct) : (t.items.map (·.id)).Nodup := by
  rw [Table.items, List.map_map]
  exact List.Nodup.sublist (List.filter_sublist.map _) h

theorem Memory.Distinct.insert (h : m.Distinct) (name : String) (ht : t.Distinct) :
    Memory.Distinct ⟨Keyed.insert name t m.tables⟩ :=
  Keyed.forall_insert h ht

theorem Memory.Distinct.erase (h : m.Distinct) (name : String) :
    Memory.Distinct ⟨Keyed.erase name m.tables⟩ :=
  Keyed.forall_erase h name

/-! ## Reading and writing tables -/

theorem leaves_read (name : String) : Step.Leaves (Store.read (τ := Memory) name) := fun _ => rfl

/-- A table is read exactly when it is there. -/
theorem call_read_eq_ok_iff {s s' : Session Memory} :
    call (Store.read name) s = (.ok t, s') ↔ Keyed.get? name s.server.tables = some t ∧ s' = s := by
  have hread : ∀ m : Memory, Store.read name m = (m.find? name, m) := fun _ => rfl
  rw [call_eq_ok_iff]
  simp only [hread, Memory.find?]
  cases hget : Keyed.get? name s.server.tables with
  | none =>
    constructor
    · rintro ⟨m, hm, -⟩
      cases hm
    · rintro ⟨heq, -⟩
      cases heq
  | some t₀ =>
    constructor
    · rintro ⟨m, hm, rfl⟩
      cases hm
      exact ⟨rfl, rfl⟩
    · rintro ⟨heq, rfl⟩
      cases heq
      exact ⟨_, rfl, rfl⟩

theorem keeps_read (name : String) :
    Step.Keeps (ServerHas Memory.Distinct) (call (Store.read (τ := Memory) name)) :=
  Keeps.call (leaves_read name).keeps

theorem keeps_write (name : String) (ht : t.Distinct) :
    Step.Keeps (ServerHas Memory.Distinct) (call (Store.write (τ := Memory) name t)) :=
  Keeps.call fun _ hm => hm.insert name ht

/-- What is done with a table that was read may rest on its rows being distinct. -/
theorem keeps_reading {α : Type} {f : Table → Action (Session Memory) α}
    (hf : ∀ t, t.Distinct → Step.Keeps (ServerHas Memory.Distinct) (f t)) (name : String) :
    Step.Keeps (ServerHas Memory.Distinct) (call (Store.read name) >>= f) := fun s hs =>
  Step.keeps_bind_at (keeps_read name s hs) fun t s' hrun => by
    obtain ⟨ht, rfl⟩ := call_read_eq_ok_iff.1 hrun
    exact hf t (hs name t ht) s' hs

theorem keeps_resolve (name : String) :
    Step.Keeps (ServerHas Memory.Distinct) (resolve (τ := Memory) name) := fun s hs => by
  have hasked : ∀ width : Table → Option Nat, Step.Leaves (do
      pure (width (← Store.read (τ := Memory) name)) : Call Memory (Option Nat)) :=
    fun width => (leaves_read name).bind fun _ => Step.leaves_pure _
  have hserver := resolveWidth_server (hasked Table.width) (hasked Table.someWidth?) name s
  show Memory.Distinct _
  rw [resolve, hserver]
  exact hs

theorem keeps_addItems (name : String) (items : List Item) :
    Step.Keeps (ServerHas Memory.Distinct) (addItems (τ := Memory) name items) := by
  refine Step.Keeps.bind leaves_ensureConnected.keeps fun _ => ?_
  split
  · exact (Step.leaves_pure _).keeps
  refine Step.Keeps.bind (fun _ hs => hs) fun _ => Step.Keeps.bind (fun _ hs => hs) fun _ =>
    keeps_reading (fun t ht => ?_) name
  refine Step.Keeps.bind (fun _ hs => hs) fun items => Step.Keeps.bind (keeps_resolve name)
    fun dimension => Step.Keeps.bind (fun _ hs => hs) fun width =>
      Step.Keeps.bind (fun _ hs => hs) fun width => ?_
  -- whether the width is declared by the batch or by the table, the write is the same
  have hwrite : Step.Keeps (ServerHas Memory.Distinct) (do
      call (Store.write name (Table.upsert { t with width := t.width <|> some width }
        (items.map (Row.ofItem width))))
      dropListings name : Action (Session Memory) Unit) :=
    Step.Keeps.bind (keeps_write name
      (Table.Distinct.upsert (t := { t with width := t.width <|> some width }) ht _))
      fun _ _ hs => hs
  simp only
  split
  · exact Step.Keeps.bind (fun _ hs => hs) fun _ => hwrite
  · exact hwrite

/-- **The rows stay distinct**, whatever is called. -/
theorem keeps : (adapter (τ := Memory)).Keeps (ServerHas Memory.Distinct) fun _ => True where
  connect := Step.Keeps.bind (Keeps.call fun _ hm => hm) fun _ _ hs => hs
  disconnect := fun _ hs => hs
  listCollections := Step.Keeps.bind leaves_ensureConnected.keeps fun _ =>
    Keeps.call fun _ hm => hm
  createCollection name width metric := by
    refine Step.Keeps.bind leaves_ensureConnected.keeps fun _ => Step.Keeps.bind (fun _ hs => hs)
      fun _ => Step.Keeps.bind (Keeps.call fun _ hm => hm) fun there => ?_
    cases there with
    | true => exact (Step.leaves_throw _).keeps
    | false =>
      exact Step.Keeps.bind (keeps_write name (t := .new width metric) (List.nodup_singleton _))
        fun _ _ hs => hs
  describe name := Step.Keeps.bind leaves_ensureConnected.keeps fun _ =>
    Step.Keeps.bind (keeps_read name) fun _ => Step.Keeps.bind (keeps_resolve name)
      fun _ _ hs => hs
  addItems name items _ := keeps_addItems name items
  getItems name _ := Step.Keeps.bind leaves_ensureConnected.keeps fun _ =>
    Step.Keeps.bind (keeps_read name) fun _ _ hs => hs
  listItems name _ _ := Step.Keeps.bind leaves_ensureConnected.keeps fun _ =>
    Step.Keeps.bind (fun _ hs => hs) fun _ => Step.Keeps.bind (fun _ hs => hs) fun _ =>
      Unlisted.materialized lasting_serverHas.unlisted
        (Step.Keeps.bind (keeps_read name) fun _ _ hs => hs)
  updateItems name updates _ := by
    refine Step.Keeps.bind leaves_ensureConnected.keeps fun _ => ?_
    split
    · exact (Step.leaves_pure _).keeps
    · exact Step.Keeps.bind (Step.Keeps.bind leaves_ensureConnected.keeps fun _ =>
        Step.Keeps.bind (keeps_read name) fun _ _ hs => hs) fun _ =>
          Step.Keeps.bind (fun _ hs => hs) fun _ => Step.Keeps.bind (fun _ hs => hs)
            fun merged => keeps_addItems name merged
  deleteItems name ids filter := by
    refine Step.Keeps.bind leaves_ensureConnected.keeps fun _ => ?_
    split
    · exact (Step.leaves_pure _).keeps
    refine Step.Keeps.bind (fun _ hs => hs) fun compiled => keeps_reading (fun t ht => ?_) name
    simp only
    split
    · exact (Step.leaves_pure _).keeps
    · exact Step.Keeps.bind (keeps_write name (ht.remove _)) fun _ _ hs => hs
  dropCollection name := by
    refine Step.Keeps.bind leaves_ensureConnected.keeps fun _ =>
      Step.Keeps.bind (Keeps.call fun m hm => ?_) fun _ => Step.Keeps.bind (fun _ hs => hs)
        fun _ _ hs => hs
    show Memory.Distinct (Store.drop (τ := Memory) name m).2
    simp only [Store.drop]
    split
    · exact hm.erase name
    · exact hm
  countItems name := Step.Keeps.bind leaves_ensureConnected.keeps fun _ =>
    Step.Keeps.bind (keeps_read name) fun _ _ hs => hs
  search name query := Step.Keeps.bind leaves_ensureConnected.keeps fun _ =>
    Step.Keeps.bind (fun _ hs => hs) fun _ => Step.Keeps.bind (fun _ hs => hs) fun _ =>
      Step.Keeps.bind (keeps_read name) fun _ => Step.Keeps.bind (keeps_resolve name) fun _ =>
        Step.Keeps.bind (fun _ hs => hs) fun _ _ hs => hs
  metadata _ := (Step.leaves_pure _).keeps

/-! ## Listing and removing -/

section Removal

variable {s s' : Session Memory} {f : Filter} {compiled : CompiledFilter Unit}

/-- The client evaluates the whole filter. -/
theorem residual_of_compile (h : filterCompiler.compile f = .ok compiled) :
    compiled.residual = f := by
  obtain ⟨-, ds, -, rfl⟩ := FilterCompiler.compile_eq_ok_iff.1 h
  have hclient : filterCompiler.clientSide f = f.clauses :=
    List.filter_eq_self.2 fun c _ => by simp [filterCompiler, Capabilities.isServerSide_allResidual]
  show (⟨filterCompiler.clientSide f⟩ : Filter) = f
  rw [hclient]

/-- What is listed under a filter has a filter that compiles. -/
theorem compile_of_listItems {request : PageRequest} {page : Page Item}
    (hlist : listItems name request (some f) s = (.ok page, s')) :
    ∃ compiled, filterCompiler.compile f = .ok compiled := by
  rw [listItems, ensureConnected_bind_eq_ok_iff, Action.ofResult_bind_eq_ok_iff] at hlist
  obtain ⟨-, -, -, hlist⟩ := hlist
  obtain ⟨compiled, hc, -⟩ := Action.ofResult_bind_eq_ok_iff.1 hlist
  exact ⟨compiled, hc⟩

/-- The items of a table that pass a filter. -/
def found (name : String) (f : Filter) : Action (Session Memory) (List Item) := do
  pure ((← call (Store.read name)).items.filter f.accepts)

theorem found_eq_ok_iff {items : List Item} :
    found name f s = (.ok items, s') ↔
      (∃ t, Keyed.get? name s.server.tables = some t ∧ items = t.items.filter f.accepts) ∧
        s' = s := by
  rw [found, Step.bind_eq_ok_iff]
  constructor
  · rintro ⟨t, s₁, hread, hitems⟩
    obtain ⟨ht, rfl⟩ := call_read_eq_ok_iff.1 hread
    cases hitems
    exact ⟨⟨t, ht, rfl⟩, rfl⟩
  · rintro ⟨⟨t, ht, rfl⟩, rfl⟩
    exact ⟨t, s', call_read_eq_ok_iff.2 ⟨ht, rfl⟩, rfl⟩

/-- **A page is listed exactly when** there is a connection, something is asked
for, and the page can be cut from what is found. -/
theorem listItems_eq_ok_iff (hc : filterCompiler.compile f = .ok compiled)
    {request : PageRequest} {page : Page Item} :
    listItems name request (some f) s = (.ok page, s') ↔
      s.connected = true ∧ 0 < request.size ∧
        materialized (listingKey name (some f)) request (found name f) s = (.ok page, s') := by
  have hc' : filterCompiler.compile? (some f) = .ok compiled := hc
  have hfetch : (do pure (compiled.postFilter (← call (Store.read name)).items) :
      Action (Session Memory) (List Item)) = found name f := by
    rw [found, ← residual_of_compile hc]
    rfl
  rw [listItems, ensureConnected_bind_eq_ok_iff, Action.ofResult_bind_eq_ok_iff, hc',
    Step.bind_of_ok (Action.ofResult_apply _ s), hfetch]
  refine and_congr_right fun _ => ⟨fun ⟨_, hsize, hpage⟩ => ?_, fun ⟨hsize, hpage⟩ => ?_⟩
  · exact ⟨PageRequest.validate_eq_ok_iff.1 hsize, hpage⟩
  · exact ⟨(), PageRequest.validate_eq_ok_iff.2 hsize, hpage⟩

/-- A drain is what passes the filter, and only the listings change. -/
theorem drains_eq_filter (hc : filterCompiler.compile f = .ok compiled) {sizes : List Nat}
    {items : List Item} (hdrain : Drains (listItems name · (some f)) none sizes s items s') :
    ∃ t, Keyed.get? name s.server.tables = some t ∧ items = t.items.filter f.accepts ∧
      s'.server = s.server ∧ s'.connected = true := by
  obtain ⟨size, page, s₁, hfirst⟩ := hdrain.first
  obtain ⟨-, -, hlist⟩ := (listItems_eq_ok_iff hc).1 hfirst
  -- the first page reads the table, and the later ones go by what it found
  obtain ⟨items₀, s₂, hfound⟩ := materialized_first_eq_ok hlist
  obtain ⟨⟨t, ht, rfl⟩, rfl⟩ := found_eq_ok_iff.1 hfound
  obtain ⟨hitems, hwalk⟩ :=
    drains_materialized (fun _ hlist => (listItems_eq_ok_iff hc).1 hlist) hfound hdrain
  exact ⟨t, ht, hitems, hwalk.server, hwalk.connected⟩

/-- What is left of the items when some ids are removed. -/
theorem items_remove (t : Table) (ids : List String) :
    (t.remove ids).items = t.items.filter fun item => !ids.contains item.id := by
  rw [Table.items, Table.items, Table.visible, Table.visible, Table.remove, List.filter_filter,
    List.filter_map, List.filter_filter]
  congr 1
  refine List.filter_congr fun r _ => ?_
  show (!r.isSentinel && (r.isSentinel || !ids.contains r.id)) =
    (!ids.contains r.id && !r.isSentinel)
  -- a row that only declares a width is no item, and is not removed
  cases r.isSentinel <;> simp

theorem remove_nil (t : Table) : t.remove [] = t := by
  have hall : t.rows.filter (fun r => r.isSentinel || !([] : List String).contains r.id) =
      t.rows := List.filter_eq_self.2 fun r _ => Bool.or_true _
  rw [Table.remove, hall]

theorem targets_filter (t : Table) (f : Filter) :
    targets t [] (some f) = (t.items.filter f.accepts).map (·.id) := by
  have hall : t.items.filter (fun item =>
      ([] : List String).isEmpty || ([] : List String).contains item.id) = t.items :=
    List.filter_eq_self.2 fun _ _ => rfl
  simp only [targets]
  rw [hall]

/-- **A removal by filter takes the ids of the items that pass**, and changes no
other table. -/
theorem deleteItems_ok (hc : filterCompiler.compile f = .ok compiled) (hf : f.isEmpty = false)
    (ht : Keyed.get? name s.server.tables = some t)
    (hdel : deleteItems name [] (some f) s = (.ok (), s')) :
    s'.connected = true ∧
      Keyed.get? name s'.server.tables =
        some (t.remove ((t.items.filter f.accepts).map (·.id))) ∧
      ∀ other, other ≠ name →
        Keyed.get? other s'.server.tables = Keyed.get? other s.server.tables := by
  have hsel : selective (some f) = some f := by simp [selective, hf]
  have hc' : filterCompiler.compile? (some f) = .ok compiled := hc
  rw [deleteItems, ensureConnected_bind_eq_ok_iff, hsel, hc'] at hdel
  obtain ⟨hconn, hdel⟩ := hdel
  rw [List.isEmpty_nil, Option.isNone_some, Bool.and_false, if_neg Bool.false_ne_true,
    Step.bind_of_ok (Action.ofResult_apply _ s),
    Step.bind_of_ok (call_read_eq_ok_iff.2 ⟨ht, rfl⟩), Option.map_some,
    residual_of_compile hc, targets_filter] at hdel
  -- what is removed are ids from here on, wherever they came from
  generalize (t.items.filter f.accepts).map (·.id) = ids at hdel ⊢
  split at hdel
  · rename_i hempty
    obtain rfl := List.isEmpty_iff.1 hempty
    cases hdel
    rw [remove_nil]
    exact ⟨hconn, ht, fun _ _ => rfl⟩
  · obtain ⟨_, s₁, hwrite, hdrop⟩ := Step.bind_eq_ok_iff.1 hdel
    obtain ⟨m, hm, rfl⟩ := call_eq_ok_iff.1 hwrite
    cases hm
    cases hdrop
    exact ⟨hconn, Keyed.get?_insert_self _ _ _,
      fun other hne => Keyed.get?_insert_of_ne hne.symm _ _⟩

/-- **A removal by filter is the complement of the listing.** After a drain and a
removal under the same filter, the table lacks the rows of the ids that the
drain has seen. -/
theorem removed_of_drain (hf : f.isEmpty = false) {sizes : List Nat} {items : List Item}
    {s₁ s₂ : Session Memory}
    (hdrain : Drains (listItems name · (some f)) none sizes s items s₁)
    (hdel : deleteItems name [] (some f) s₁ = (.ok (), s₂)) :
    ∃ t, items = t.items.filter f.accepts ∧
      Removed (listItems name · (some f)) (fun s n => Keyed.get? n s.server.tables) s s₂ name t
        (t.remove (items.map (·.id))) := by
  obtain ⟨size, page, s₀, hfirst⟩ := hdrain.first
  obtain ⟨compiled, hc⟩ := compile_of_listItems hfirst
  obtain ⟨t, ht, rfl, hserver, -⟩ := drains_eq_filter hc hdrain
  obtain ⟨hconn₂, hhere, hothers⟩ := deleteItems_ok hc hf (hserver ▸ ht) hdel
  rw [hserver] at hothers
  -- an item that passes was seen, so its id is not left
  have hnone : (t.remove ((t.items.filter f.accepts).map (·.id))).items.filter f.accepts = [] := by
    rw [items_remove, List.filter_eq_nil_iff]
    intro item hitem hacc
    obtain ⟨hmem, hleft⟩ := List.mem_filter.1 hitem
    have hseen := List.mem_map_of_mem (f := Item.id) (List.mem_filter.2 ⟨hmem, hacc⟩)
    rw [List.contains_iff_mem.2 hseen] at hleft
    cases hleft
  refine ⟨t, rfl, ht, hhere, hothers, fun hdrain' => ?_, ?_⟩
  · obtain ⟨t', ht', rfl, -⟩ := drains_eq_filter hc hdrain'
    obtain rfl := Option.some.inj (hhere.symm.trans ht')
    exact hnone
  · have hfound := (found_eq_ok_iff (f := f)).2 ⟨⟨_, hhere, rfl⟩, rfl⟩
    rw [hnone] at hfound
    have hpage : materialized (listingKey name (some f)) ⟨none, 1⟩ (found name f) s₂ = _ :=
      materialized_first Nat.one_pos hfound
    exact ⟨_, .single ((listItems_eq_ok_iff hc).2 ⟨hconn₂, Nat.one_pos, hpage⟩)⟩

end Removal

end Columnar

end VectorBridge
