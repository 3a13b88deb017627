import VectorBridge.Proofs.Columnar.Tables
/-!
# Sessions that track an archive

A session tracks an archive when its tables are those of the rosters. What the
session keeps beside the tables then agrees with them: a width that is
remembered is that of a collection that is there, and a listing that is held is
of a collection as it is now, as every write to a collection drops its
listings. Reading therefore answers what the archive answers.
-/

namespace VectorBridge

namespace Columnar

open Session

/-! ## Tables, widths and listings of an archive -/

/-- The tables in memory are those of the rosters, whose items all fit. -/
structure Represents (m : Memory) (k : Rosters) : Prop where
  ascending : m.tables.Ascending
  tables : ∀ name, Keyed.get? name m.tables = k[name]?.map Roster.table
  sound : ∀ (name : String) (r : Roster), k[name]? = some r → r.Sound

/-- Widths of collections that are there. -/
def WidthsOf (k : Rosters) (ws : Keyed String Nat) : Prop :=
  ∀ name w, Keyed.get? name ws = some w → ∃ r : Roster, k[name]? = some r ∧ r.width = w

/-- Listings of collections as they are now. A key does not tell which collection
and filter it is made of; it is one that makes it. -/
def ListingsOf (k : Rosters) (l : Listings Item) : Prop :=
  ∀ key found, Keyed.get? key l = some found → ∃ name filter, ∃ r : Roster,
    listingKey name filter = key ∧ k[name]? = some r ∧ found = r.matching filter

/-- A session tracks an archive. -/
structure Tracks (s : Session Memory) (a : Archive) : Prop where
  context : s.context = a.context
  connected : s.connected = a.connected
  asked : s.requests = a.asked
  represents : Represents s.server a.rosters
  widths : ∃ ws, s.dimensions = .cached ws ∧ WidthsOf a.rosters ws
  listings : ListingsOf a.rosters s.listings

variable {m : Memory} {k k' : Rosters} {ws : Keyed String Nat} {l : Listings Item}
variable {name : String} {r : Roster}

namespace Represents

theorem insert (h : Represents m k) (hr : r.Sound) (name : String) :
    Represents ⟨Keyed.insert name r.table m.tables⟩ (k.insert name r) where
  ascending := h.ascending.insert name r.table
  tables other := by
    rw [Keyed.get?_insert, Std.ExtTreeMap.getElem?_insert]
    by_cases ho : name = other
    · simp [ho]
    · simpa [ho] using h.tables other
  sound other d hd := by
    rw [Std.ExtTreeMap.getElem?_insert] at hd
    by_cases ho : name = other
    · simp only [ho, Std.compare_self, reduceIte, Option.some.injEq] at hd
      exact hd ▸ hr
    · exact h.sound other d (by simpa [ho] using hd)

theorem erase (h : Represents m k) (name : String) :
    Represents ⟨Keyed.erase name m.tables⟩ (k.erase name) where
  ascending := h.ascending.erase name
  tables other := by
    rw [Keyed.get?_erase, Std.ExtTreeMap.getElem?_erase]
    by_cases ho : name = other
    · simp [ho]
    · simpa [ho] using h.tables other
  sound other d hd := by
    rw [Std.ExtTreeMap.getElem?_erase] at hd
    by_cases ho : name = other
    · simp [ho] at hd
    · exact h.sound other d (by simpa [ho] using hd)

theorem get?_of_some (h : Represents m k) (hr : k[name]? = some r) :
    Keyed.get? name m.tables = some r.table := by
  rw [h.tables, hr]
  rfl

theorem get?_of_none (h : Represents m k) (hr : k[name]? = none) :
    Keyed.get? name m.tables = none := by
  rw [h.tables, hr]
  rfl

/-- Every table is that of a roster whose items fit. -/
theorem exists_roster (h : Represents m k) {t : Table} (ht : Keyed.get? name m.tables = some t) :
    ∃ r : Roster, k[name]? = some r ∧ r.Sound ∧ t = r.table := by
  rw [h.tables] at ht
  obtain ⟨r, hr, rfl⟩ := Option.map_eq_some_iff.1 ht
  exact ⟨r, hr, h.sound name r hr, rfl⟩

/-- The names of the tables are those of the collections. -/
theorem keys_tables (h : Represents m k) : Keyed.keys m.tables = k.keys := by
  have hrows : m.tables = k.toList.map fun e => (e.1, e.2.table) := by
    refine h.ascending.ext ?_ fun name => ?_
    · exact List.pairwise_map.2 (Keyed.ascending_toList k)
    · rw [h.tables, Keyed.get?_map_values, Keyed.get?_toList]
  rw [hrows, Keyed.keys, List.map_map, ← Std.ExtTreeMap.map_fst_toList_eq_keys]
  rfl

end Represents

namespace WidthsOf

/-- Remembering the width of a collection that is there. -/
theorem record (h : WidthsOf k ws) (hr : k[name]? = some r) :
    WidthsOf k (Keyed.insert name r.width ws) :=
  Keyed.forall_insert h ⟨r, hr, rfl⟩

/-- A collection may come, or change in its items. -/
theorem insert (h : WidthsOf k ws) (hold : ∀ old, k[name]? = some old → old.width = r.width) :
    WidthsOf (k.insert name r) ws := by
  intro other w hw
  obtain ⟨old, hget, rfl⟩ := h other w hw
  by_cases ho : name = other
  · subst ho
    exact ⟨r, by simp, (hold old hget).symm⟩
  · exact ⟨old, by simpa [Std.ExtTreeMap.getElem?_insert, ho] using hget, rfl⟩

theorem erase (h : WidthsOf k ws) (name : String) :
    WidthsOf (k.erase name) (Keyed.erase name ws) := by
  intro other w hw
  rw [Keyed.get?_erase] at hw
  split at hw
  · cases hw
  · rename_i ho
    obtain ⟨r, hget, rfl⟩ := h other w hw
    exact ⟨r, by simpa [Std.ExtTreeMap.getElem?_erase, ho] using hget, rfl⟩

end WidthsOf

namespace ListingsOf

/-- A listing of a collection that is there may be held. -/
theorem keep (h : ListingsOf k l) (hr : k[name]? = some r) (filter : Option Filter) :
    ListingsOf k (Keyed.insert (listingKey name filter) (r.matching filter) l) :=
  Keyed.forall_insert h ⟨name, filter, r, rfl, hr, rfl⟩

/-- **Dropping the listings of a collection lets it change.** -/
theorem invalidate (h : ListingsOf k l) (hothers : ∀ other, other ≠ name → k'[other]? = k[other]?) :
    ListingsOf k' (l.invalidate (Listings.keyStart name)) := by
  intro key found hget
  rw [Listings.invalidate,
    Keyed.get?_filter_key fun key => !Text.startsWith key (Listings.keyStart name)] at hget
  split at hget
  · rename_i hleft
    obtain ⟨other, filter, r, rfl, hr, rfl⟩ := h key found hget
    have hne : other ≠ name := by
      rintro rfl
      rw [startsWith_listingKey] at hleft
      cases hleft
    exact ⟨other, filter, r, rfl, by rw [hothers other hne, hr], rfl⟩
  · cases hget

/-- Nothing is held of a collection that is not there, so it may come. -/
theorem insert_new (h : ListingsOf k l) (hnew : k[name]? = none) :
    ListingsOf (k.insert name r) l := by
  intro key found hget
  obtain ⟨other, filter, d, hkey, hd, rfl⟩ := h key found hget
  have hne : name ≠ other := by
    rintro rfl
    rw [hnew] at hd
    cases hd
  exact ⟨other, filter, d, hkey, by simpa [Std.ExtTreeMap.getElem?_insert, hne] using hd, rfl⟩

end ListingsOf

/-! ## Steps of a session and of an archive -/

section Steps

variable {s : Session Memory} {a : Archive} {α β : Type}

theorem alike_pure (h : Tracks s a) (x : α) :
    Step.Alike Tracks ((pure x : Action (Session Memory) α) s) ((pure x : Action Archive α) a) :=
  ⟨rfl, h⟩

theorem alike_throw (h : Tracks s a) (e : Error) :
    Step.Alike Tracks ((throw e : Action (Session Memory) α) s) ((throw e : Action Archive α) a) :=
  ⟨rfl, h⟩

/-- What comes after a check may rest on its success. -/
theorem alike_check (h : Tracks s a) {check : Result α} {f : α → Action (Session Memory) β}
    {g : α → Action Archive β}
    (hfg : ∀ x, check = .ok x → Step.Alike Tracks (f x s) (g x a)) :
    Step.Alike Tracks ((Action.ofResult check >>= f) s) ((Action.ofResult check >>= g) a) := by
  cases hcheck : check with
  | error e =>
    rw [Step.bind_of_error (Action.ofResult_apply _ s),
      Step.bind_of_error (Action.ofResult_apply _ a)]
    exact ⟨rfl, h⟩
  | ok x =>
    rw [Step.bind_of_ok (Action.ofResult_apply _ s), Step.bind_of_ok (Action.ofResult_apply _ a)]
    exact hfg x hcheck

theorem alike_connected (h : Tracks s a) {f : Unit → Action (Session Memory) β}
    {g : Unit → Action Archive β}
    (hfg : s.connected = true → Step.Alike Tracks (f () s) (g () a)) :
    Step.Alike Tracks ((ensureConnected >>= f) s) ((Archive.ensureConnected >>= g) a) := by
  have harchive : Archive.ensureConnected a =
      (if s.connected then .ok () else .error .notConnected, a) := by
    rw [Archive.ensureConnected, Step.bind_of_ok (Step.get_apply a), h.connected]
    split <;> rfl
  by_cases hconn : s.connected = true
  · rw [if_pos hconn] at harchive
    rw [ensureConnected_bind hconn, Step.bind_of_ok harchive]
    exact hfg hconn
  · rw [if_neg hconn] at harchive
    rw [ensureConnected_bind_of_not hconn, Step.bind_of_error harchive]
    exact ⟨rfl, h⟩

theorem roster_of_some (hr : a.rosters[name]? = some r) : Archive.roster name a = (.ok r, a) := by
  rw [Archive.roster, Step.bind_of_ok (Step.get_apply a), hr]
  rfl

theorem roster_of_none (hr : a.rosters[name]? = none) :
    Archive.roster name a = (.error (.notFound s!"table '{name}'"), a) := by
  rw [Archive.roster, Step.bind_of_ok (Step.get_apply a), hr]
  rfl

theorem leaves_archive_connected : Step.Leaves Archive.ensureConnected := fun a => by
  rw [Archive.ensureConnected, Step.bind_of_ok (Step.get_apply a)]
  split <;> rfl

theorem leaves_archive_roster (name : String) : Step.Leaves (Archive.roster name) := fun a => by
  cases hr : a.rosters[name]? with
  | none => rw [roster_of_none hr]
  | some r => rw [roster_of_some hr]

theorem read_of_some (h : Tracks s a) (hr : a.rosters[name]? = some r) :
    call (Store.read name) s = (.ok r.table, s) :=
  call_read_eq_ok_iff.2 ⟨h.represents.get?_of_some hr, rfl⟩

theorem read_of_none (h : Tracks s a) (hr : a.rosters[name]? = none) :
    call (Store.read (τ := Memory) name) s = (.error (.notFound s!"table '{name}'"), s) := by
  have hread : Store.read name s.server = (.error (.missing s!"table '{name}'"), s.server) := by
    show (s.server.find? name, s.server) = _
    rw [Memory.find?, h.represents.get?_of_none hr]
  exact call_of_error hread

/-- Reading a table is looking up its roster. -/
theorem alike_reading (h : Tracks s a) {f : Table → Action (Session Memory) β}
    {g : Roster → Action Archive β}
    (hfg : ∀ r, a.rosters[name]? = some r → Step.Alike Tracks (f r.table s) (g r a)) :
    Step.Alike Tracks ((call (Store.read name) >>= f) s) ((Archive.roster name >>= g) a) := by
  cases hr : a.rosters[name]? with
  | none =>
    rw [Step.bind_of_error (read_of_none h hr), Step.bind_of_error (roster_of_none hr)]
    exact ⟨rfl, h⟩
  | some r =>
    rw [Step.bind_of_ok (read_of_some h hr), Step.bind_of_ok (roster_of_some hr)]
    exact hfg r hr

/-- A provider is asked the same after the same requests. -/
theorem alike_asking (h : Tracks s a) {ask : Context → Action (List EmbeddingRequest) α}
    {f : α → Action (Session Memory) β} {g : α → Action Archive β}
    (hfg : ∀ x log s' a', ask a.context a.asked = (.ok x, log) → a'.rosters = a.rosters →
      Tracks s' a' → Step.Alike Tracks (f x s') (g x a')) :
    Step.Alike Tracks ((embedding ask >>= f) s) ((Archive.asking ask >>= g) a) := by
  rcases hask : ask a.context a.asked with ⟨answer, log⟩
  have hsession : embedding ask s = (answer, { s with requests := log }) := by
    rw [embedding_apply, h.context, h.asked, hask]
  have harchive : Archive.asking ask a = (answer, { a with asked := log }) := by
    rw [Archive.asking, hask]
  have h' : Tracks { s with requests := log } { a with asked := log } :=
    ⟨h.context, h.connected, rfl, h.represents, h.widths, h.listings⟩
  cases answer with
  | error e =>
    rw [Step.bind_of_error hsession, Step.bind_of_error harchive]
    exact ⟨rfl, h'⟩
  | ok x =>
    rw [Step.bind_of_ok hsession, Step.bind_of_ok harchive]
    exact hfg x log _ _ hask rfl h'

/-- The width of a table is the one that its roster has, remembered or declared. -/
theorem resolve_of_some (h : Tracks s a) (hr : a.rosters[name]? = some r) :
    ∃ dimensions, resolve name s = (.ok (.known r.width), { s with dimensions }) ∧
      Tracks { s with dimensions } a := by
  obtain ⟨ws, hws, hwidths⟩ := h.widths
  cases hget : Keyed.get? name ws with
  | some w =>
    obtain ⟨r', hr', rfl⟩ := hwidths name w hget
    obtain rfl : r = r' := Option.some.inj (hr.symm.trans hr')
    exact ⟨s.dimensions, resolveWidth_of_cached hws hget, h⟩
  | none =>
    have hread : Store.read name s.server = (.ok r.table, s.server) := by
      show (s.server.find? name, s.server) = _
      rw [Memory.find?, h.represents.get?_of_some hr]
    have hdeclared : (do pure (← Store.read (τ := Memory) name).width :
        Call Memory (Option Nat)).toAction s.server = (.ok (some r.width), s.server) :=
      Call.toAction_of_ok (Step.bind_of_ok hread _)
    refine ⟨_, resolveWidth_of_declared hws hget hdeclared, h.context, h.connected, h.asked,
      h.represents, ⟨Keyed.insert name r.width ws, ?_, hwidths.record hr⟩, h.listings⟩
    simp [hws, DimensionResolver.record]

/-- What follows the look-up of a width. -/
theorem alike_resolving (h : Tracks s a) (hr : a.rosters[name]? = some r)
    {f : Dimension → Action (Session Memory) β} {g : Action Archive β}
    (hfg : ∀ s', Tracks s' a → Step.Alike Tracks (f (.known r.width) s') (g a)) :
    Step.Alike Tracks ((resolve name >>= f) s) (g a) := by
  obtain ⟨dimensions, hresolve, h'⟩ := resolve_of_some h hr
  rw [Step.bind_of_ok hresolve]
  exact hfg _ h'

/-! ## Filters -/

/-- A filter compiles when it is valid, and the client evaluates all of it. -/
theorem compile?_eq (filter : Option Filter) :
    filterCompiler.compile? filter =
      (checkFilter filter).map fun _ => ⟨none, filter.getD .empty⟩ := by
  cases filter with
  | none => rfl
  | some f =>
    have hclient : filterCompiler.clientSide f = f.clauses :=
      List.filter_eq_self.2 fun c _ => by
        simp [filterCompiler, Capabilities.isServerSide_allResidual]
    have hserver : filterCompiler.serverSide f = [] :=
      List.filter_eq_nil_iff.2 fun c _ => by
        simp [filterCompiler, Capabilities.isServerSide_allResidual]
    simp only [FilterCompiler.compile?, FilterCompiler.compile, checkFilter, Option.getD_some,
      hserver, hclient]
    cases f.validate <;> rfl

theorem alike_compiling (h : Tracks s a) {filter : Option Filter}
    {f : CompiledFilter Unit → Action (Session Memory) β} {g : Unit → Action Archive β}
    (hfg : checkFilter filter = .ok () →
      Step.Alike Tracks (f ⟨none, filter.getD .empty⟩ s) (g () a)) :
    Step.Alike Tracks ((Action.ofResult (filterCompiler.compile? filter) >>= f) s)
      ((Action.ofResult (checkFilter filter) >>= g) a) := by
  rw [compile?_eq]
  cases hcheck : checkFilter filter with
  | error e => exact ⟨rfl, h⟩
  | ok u => exact hfg hcheck

/-- What the client leaves of a table are the items that pass. -/
theorem postFilter_items (hr : r.Sound) (filter : Option Filter) :
    (⟨none, filter.getD .empty⟩ : CompiledFilter Unit).postFilter r.table.items =
      r.matching filter := by
  rw [Roster.items_table hr]
  cases filter <;> rfl

/-! ## Reading -/

theorem getItems_alike (h : Tracks s a) (name : String) (ids : List String) :
    Step.Alike Tracks (getItems name ids s) (Archive.getItems name ids a) := by
  refine alike_connected h fun _ => alike_reading h fun r hr => ?_
  rw [Roster.find?_items_table (h.represents.sound name r hr)]
  exact alike_pure h _

theorem countItems_alike (h : Tracks s a) (name : String) :
    Step.Alike Tracks (countItems name s) (Archive.countItems name a) := by
  refine alike_connected h fun _ => alike_reading h fun r hr => ?_
  rw [Roster.length_visible_table (h.represents.sound name r hr)]
  exact alike_pure h _

theorem describe_alike (h : Tracks s a) (name : String) :
    Step.Alike Tracks (describe name s) (Archive.describe name a) := by
  refine alike_connected h fun _ => alike_reading h fun r hr => ?_
  refine alike_resolving h hr (g := pure _) fun s' h' => ?_
  have hsound := h.represents.sound name r hr
  rw [Roster.length_visible_table hsound, Roster.items_table hsound]
  exact alike_pure h' _

theorem search_alike (h : Tracks s a) (name : String) (query : Query) :
    Step.Alike Tracks (search name query s) (Archive.search name query a) := by
  refine alike_connected h fun _ => alike_check h fun _ _ => alike_compiling h fun _ =>
    alike_reading h fun r hr => ?_
  refine alike_resolving h hr (g := Archive.asking _ >>= _) fun s' h' => ?_
  refine alike_asking h' fun vectors _ s₂ a₂ _ _ h₂ => ?_
  rw [postFilter_items (h.represents.sound name r hr)]
  exact alike_pure h₂ _

theorem listCollections_alike (h : Tracks s a) :
    Step.Alike Tracks ((adapter (τ := Memory)).listCollections s)
      (Archive.adapter.listCollections a) := by
  refine alike_connected h fun _ => ?_
  have hsession : call (Store.tables (τ := Memory)) s =
      (.ok (Keyed.keys s.server.tables), s) := call_of_ok rfl
  rw [hsession, h.represents.keys_tables]
  exact ⟨rfl, h⟩

end Steps

end Columnar

end VectorBridge
