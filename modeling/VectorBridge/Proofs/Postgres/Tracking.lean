import VectorBridge.Postgres.Store
import VectorBridge.Proofs.Postgres.Pushdown
import VectorBridge.Proofs.Session
import VectorBridge.Proofs.Shelf
/-!
# Sessions that track a catalog

A session tracks a catalog when the tables are the collections row for row, the
rows stand under the ids of their items, and a remembered width is the width
of a collection that is there. Reading answers what the catalog answers and
changes nothing: no filter leaves the client anything to do, so no listing is
fetched whole.
-/

namespace VectorBridge

namespace Postgres

open Session

/-! ## Tracking -/

/-- The tables of a database are the collections of a catalog. -/
structure Represents (m : Memory) (k : Catalog) : Prop where
  tables : ∀ name, (Keyed.get? name m.tables).map (fun t => (t.width, t.rows)) =
    k[name]?.map fun d => (d.width, d.items.toList)
  filed : ∀ (name : String) (d : Shelf), k[name]? = some d → d.Filed

/-- A session of settings `c` tracks a catalog. -/
structure Tracks (c : Context) (s : Session Memory) (k : Catalog) : Prop where
  represents : Represents s.server k
  connected : s.connected = true
  context : s.context = c
  widths : ∃ ws, s.dimensions = .cached ws ∧
    ∀ name w, Keyed.get? name ws = some w → ∃ d : Shelf, k[name]? = some d ∧ d.width = w

variable {c : Context} {s : Session Memory} {k : Catalog} {m : Memory}

/-- A name that is in neither, or in both with the same rows. -/
theorem Represents.lookup (h : Represents m k) (name : String) :
    (Keyed.get? name m.tables = none ∧ k[name]? = none) ∨
      ∃ t d, Keyed.get? name m.tables = some t ∧ k[name]? = some d ∧ t.width = d.width ∧
        t.rows = d.items.toList := by
  have ht := h.tables name
  cases hm : Keyed.get? name m.tables with
  | none => exact .inl ⟨rfl, by simpa [hm] using ht.symm⟩
  | some t =>
    cases hk : k[name]? with
    | none => simp [hm, hk] at ht
    | some d =>
      obtain ⟨hw, hr⟩ : t.width = d.width ∧ t.rows = d.items.toList := by simpa [hm, hk] using ht
      exact .inr ⟨t, d, rfl, rfl, hw, hr⟩

/-- Replacing a table and its collection alike. -/
theorem Represents.replace (h : Represents m k) {m' : Memory} {name : String} {t : Table}
    (hm : ∀ other, Keyed.get? other m'.tables =
      if name = other then some t else Keyed.get? other m.tables)
    {d : Shelf} (hw : t.width = d.width) (hr : t.rows = d.items.toList)
    (hd : d.Filed) : Represents m' (k.insert name d) where
  tables other := by
    rw [hm, Std.ExtTreeMap.getElem?_insert]
    by_cases ho : name = other
    · simp [ho, hw, hr]
    · simpa [ho] using h.tables other
  filed other d' hd' := by
    rw [Std.ExtTreeMap.getElem?_insert] at hd'
    by_cases ho : name = other
    · simp only [ho, Std.compare_self, reduceIte, Option.some.injEq] at hd'
      exact hd' ▸ hd
    · exact h.filed other d' (by simpa [ho] using hd')

theorem Represents.insert (h : Represents m k) (name : String) {t : Table} {d : Shelf}
    (hw : t.width = d.width) (hr : t.rows = d.items.toList) (hd : d.Filed) :
    Represents ⟨Keyed.insert name t m.tables⟩ (k.insert name d) :=
  h.replace (fun other => Keyed.get?_insert name other t m.tables) hw hr hd

theorem Represents.erase (h : Represents m k) (name : String) :
    Represents ⟨Keyed.erase name m.tables⟩ (k.erase name) where
  tables other := by
    rw [Keyed.get?_erase, Std.ExtTreeMap.getElem?_erase]
    by_cases ho : name = other
    · simp [ho]
    · simpa [ho] using h.tables other
  filed other d hd := by
    rw [Std.ExtTreeMap.getElem?_erase] at hd
    by_cases ho : name = other
    · simp [ho] at hd
    · exact h.filed other d (by simpa [ho] using hd)

/-- Reading a table is reading its collection. -/
theorem Represents.reading (h : Represents m k) (name : String) {α : Type} {f : Table → α}
    {g : Shelf → α} (hfg : ∀ t d, k[name]? = some d → t.width = d.width →
      t.rows = d.items.toList → f t = g d) :
    (Memory.reading name f).toAction m = ((k.shelf name).map g, m) := by
  rcases h.lookup name with ⟨hm, hk⟩ | ⟨t, d, hm, hk, hw, hr⟩
  · have hread : Memory.reading name f m = (.error (.missing s!"table '{name}'"), m) := by
      simp [Memory.reading, Memory.find?, hm, Except.map]
    rw [Call.toAction_of_error hread]
    simp [Catalog.shelf, hk, Except.map, TransportError.toError]
  · have hread : Memory.reading name f m = (.ok (f t), m) := by
      simp [Memory.reading, Memory.find?, hm, Except.map]
    rw [Call.toAction_of_ok hread]
    simp [Catalog.shelf, hk, Except.map, hfg t d hk hw hr]

/-- Remembering the width of a collection that is there. -/
theorem Tracks.record (h : Tracks c s k) {m : Memory} {k' : Catalog} (hm : Represents m k')
    (hkept : ∀ (name : String) (d : Shelf), k[name]? = some d →
      ∃ d' : Shelf, k'[name]? = some d' ∧ d'.width = d.width)
    {name : String} {d : Shelf} (hd : k'[name]? = some d) :
    Tracks c { s with server := m, dimensions := s.dimensions.record name d.width } k' where
  represents := hm
  connected := h.connected
  context := h.context
  widths := by
    obtain ⟨ws, hws, hw⟩ := h.widths
    refine ⟨Keyed.insert name d.width ws, by simp [hws, DimensionResolver.record], ?_⟩
    intro other w hother
    rw [Keyed.get?_insert] at hother
    split at hother
    · rename_i heq
      exact ⟨d, heq ▸ hd, Option.some.inj hother⟩
    · obtain ⟨d', hd', rfl⟩ := hw other w hother
      exact hkept other d' hd'

/-- Changing one collection, and not its width. -/
theorem Tracks.replace (h : Tracks c s k) {name : String} {d d' : Shelf} (hd : k[name]? = some d)
    (hw : d'.width = d.width) {m' : Memory} (hm' : Represents m' (k.insert name d')) :
    Tracks c { s with server := m' } (k.insert name d') where
  represents := hm'
  connected := h.connected
  context := h.context
  widths := by
    obtain ⟨ws, hws, hget⟩ := h.widths
    refine ⟨ws, hws, fun other w hother => ?_⟩
    obtain ⟨e, he, rfl⟩ := hget other w hother
    by_cases heq : name = other
    · obtain rfl : d = e := Option.some.inj (hd.symm.trans (heq ▸ he))
      exact ⟨d', by simp [heq], hw⟩
    · exact ⟨e, by simpa [Std.ExtTreeMap.getElem?_insert, heq] using he, rfl⟩

/-- Listings fetched whole are not looked at. -/
theorem Tracks.forget (h : Tracks c s k) (listings : Listings Item) :
    Tracks c { s with listings } k :=
  ⟨h.represents, h.connected, h.context, h.widths⟩

/-- What a step answers and leaves is what the catalog answers and becomes. -/
def Follows (c : Context) (k : Catalog) (r : Result Unit × Session Memory) :
    Result Catalog → Prop
  | .ok k' => r.1 = .ok () ∧ Tracks c r.2 k'
  | .error e => r.1 = .error e ∧ Tracks c r.2 k

/-! ## Reading -/

/-- What is done with the answer of a reading can be part of the reading. -/
theorem reading_map {α β : Type} (name : String) (f : Table → α) (g : α → β) :
    (do pure (g (← Memory.reading name f)) : Call Memory β) =
      Memory.reading name fun t => g (f t) := by
  funext m
  rw [Step.bind_apply, Memory.reading, Memory.reading, Call.read_apply, Call.read_apply]
  cases m.find? name <;> rfl

/-- A reading of a table inside a session. -/
theorem Tracks.reading (h : Tracks c s k) (name : String) {α : Type} {f : Table → α}
    {g : Shelf → α} (hfg : ∀ t d, k[name]? = some d → t.width = d.width →
      t.rows = d.items.toList → f t = g d) :
    call (Memory.reading name f) s = ((k.shelf name).map g, s) := by
  rw [call, onServer_apply, h.represents.reading name hfg]

/-- Opening a collection asks nothing. -/
theorem attach_apply (name : String) (s : Session Memory) :
    call (family.attach name) s = (.ok name, s) := rfl

theorem countItems_eq (h : Tracks c s k) (name : String) :
    family.countItems name s = (k.count name, s) := by
  rw [Family.countItems, ensureConnected_bind h.connected]
  show call (Memory.reading name fun t => t.rows.length) s = _
  rw [h.reading name (g := fun d => d.items.size)
    fun t d _ _ hr => by rw [hr, Std.ExtTreeMap.length_toList]]
  rfl

theorem getItems_eq (h : Tracks c s k) (name : String) (ids : List String) :
    family.getItems name ids s = (k.get name ids, s) := by
  rw [Family.getItems, ensureConnected_bind h.connected, Catalog.get]
  split
  · rfl
  · rw [Step.bind_of_ok (attach_apply name s)]
    have hfetch : family.fetch name ids = Memory.reading name fun t => Batch.inOrderOf ids
        ((Keyed.values t.rows).filter fun item => ids.contains item.id) :=
      reading_map name _ _
    rw [hfetch, h.reading name (g := fun d => ids.eraseDups.filterMap fun id => d.items[id]?)
      fun t d hd _ hr => by rw [hr, (h.represents.filed name d hd).inOrderOf_filter]]
    rfl

/-- A compiled filter leaves the client nothing, and its conditions hold of
what passes; without a filter, of everything. -/
theorem compile?_eq_ok {filter : Option Filter} {compiled : CompiledFilter SqlWhere}
    (h : filterCompiler.compile? filter = .ok compiled) :
    compiled.isComplete = true ∧
      ∀ item, passes compiled.native item = filter.all fun f => f.accepts item := by
  cases filter with
  | none =>
    cases h
    exact ⟨rfl, fun _ => rfl⟩
  | some f =>
    refine ⟨FilterCompiler.isComplete_of_allServerSide rfl h, fun item => ?_⟩
    rw [passes_native h, Option.all_some]

/-- The page the database cuts is the one the catalog cuts. -/
theorem ofOffset_eq {request : PageRequest} {offset : Nat} (hv : request.validate = .ok ())
    (ho : request.offset = .ok offset) (found : List Item) :
    Page.ofOffset ((found.drop offset).take request.size) request =
      .ok { items := (found.drop offset).take request.size
            next := if offset + request.size ≤ found.length then
                some (.offset (offset + request.size))
              else none } := by
  have hpos : request.size ≠ 0 := by
    intro h0
    simp [PageRequest.validate, h0] at hv
  simp only [Page.ofOffset, hv, ho, List.length_take, List.length_drop]
  by_cases hfull : offset + request.size ≤ found.length
  · have hmin : min request.size (found.length - offset) = request.size := by omega
    simp [hfull, hmin]
  · have hmin : ¬ request.size ≤ min request.size (found.length - offset) := by omega
    simp [hfull, hmin]

/-- A page read from the database is a page of the collection. -/
theorem readPage_apply (h : Represents m k) (name : String) {native : Option SqlWhere}
    {filter : Option Filter} (hp : ∀ item, passes native item = filter.all fun f => f.accepts item)
    {request : PageRequest} (hv : request.validate = .ok ()) {offset : Nat}
    (ho : request.offset = .ok offset) :
    family.readPage name native request m =
      ((k.shelf name).map fun d =>
        { items := ((d.matching filter).drop offset).take request.size
          next := if offset + request.size ≤ (d.matching filter).length then
              some (.offset (offset + request.size))
            else none }, m) := by
  have hread := h.reading name (f := fun t => ((t.passing native).drop offset).take request.size)
    (g := fun d => ((d.matching filter).drop offset).take request.size) fun t d _ _ hr => by
      simp only [Table.passing, Shelf.matching, Keyed.values, hr, hp]
  simp only [family]
  rw [Step.bind_of_ok (by rw [Action.ofResult_apply, ho]), Step.bind_apply, hread]
  cases k.shelf name with
  | error e => rfl
  | ok d =>
    show (Page.ofOffset _ request, m) = _
    rw [ofOffset_eq hv ho]
    rfl

theorem listItems_eq (h : Tracks c s k) (name : String) (request : PageRequest)
    (filter : Option Filter) :
    family.listItems name request filter s = (k.list name request filter, s) := by
  rw [Family.listItems, ensureConnected_bind h.connected, Catalog.list]
  cases hv : request.validate with
  | error e => rfl
  | ok u =>
    rw [Step.bind_of_ok (Action.ofResult_apply _ s)]
    cases hc : filterCompiler.compile? filter with
    | error e =>
      have hc' : family.compiler.compile? filter = .error e := hc
      rw [hc', Step.bind_of_error (Action.ofResult_apply _ s)]
      rfl
    | ok compiled =>
      have hc' : family.compiler.compile? filter = .ok compiled := hc
      -- nothing is left to the client, so the page is the database's
      obtain ⟨hcomplete, hpasses⟩ := compile?_eq_ok hc
      rw [hc', Step.bind_of_ok (Action.ofResult_apply _ s), Step.bind_of_ok (attach_apply name s),
        if_pos hcomplete, onServer_apply]
      cases ho : request.offset with
      | error e =>
        have hpage : family.readPage name compiled.native request s.server =
            (.error e, s.server) := by
          simp only [family]
          rw [Step.bind_of_error (by rw [Action.ofResult_apply, ho])]
        rw [hpage]
        rfl
      | ok offset =>
        rw [readPage_apply h.represents name hpasses hv ho]
        rfl

end Postgres

end VectorBridge
