import VectorBridge.Proofs.Columnar.Listing
import VectorBridge.Proofs.Connection.Atomic
import VectorBridge.Proofs.Freshness
/-!
# Fresh listings of tables

Every listing of a table is fetched whole and held. A table is written or dropped in the step
before its listings are dropped, and only a table that was not there is written without that:
nothing is held of it.
-/

namespace VectorBridge

namespace Columnar

open Session

variable {m : Memory} {name : String} {filter : Option Filter} {s : Session Memory}

/-- What fetching a listing gives: the filter is compiled, the table read, and the client's
part of the filter applied. -/
def Finds (m : Memory) (name : String) (filter : Option Filter) (found : List Item) : Prop :=
  ∃ compiled t, filterCompiler.compile? filter = .ok compiled ∧
    Store.read name m = (.ok t, m) ∧ found = compiled.postFilter t.items

theorem read_eq_ok_iff {t : Table} :
    Store.read name m = (.ok t, m) ↔ Keyed.get? name m.tables = some t := by
  show (m.find? name, m) = _ ↔ _
  rw [Memory.find?]
  cases Keyed.get? name m.tables with
  | none => exact ⟨fun h => (by cases h), fun h => (by cases h)⟩
  | some t' => exact ⟨fun h => (by cases h; rfl), fun h => (by cases h; rfl)⟩

/-- Tables that are left alone are found as before. -/
theorem preserved_of_get? {m' : Memory} {p : String → Prop}
    (h : ∀ name t, p name → Keyed.get? name m.tables = some t →
      Keyed.get? name m'.tables = some t) :
    Finds.Preserved Finds p m m' := by
  rintro name hp filter found ⟨compiled, t, hc, hread, rfl⟩
  exact ⟨compiled, t, hc, read_eq_ok_iff.2 (h name t hp (read_eq_ok_iff.1 hread)), rfl⟩

theorem preserved_insert (m : Memory) (name : String) (t : Table) :
    Finds.Preserved Finds (· ≠ name) m ⟨Keyed.insert name t m.tables⟩ :=
  preserved_of_get? fun _ _ hne hget => (Keyed.get?_insert_of_ne (Ne.symm hne) _ _).trans hget

/-- The session is up to date. -/
def Fresh (s : Session Memory) : Prop := s.UpToDate Finds

theorem fresh_read (name : String) :
    Step.Keeps Fresh (call (Store.read (τ := Memory) name)) :=
  (leaves_call (leaves_read name)).keeps

theorem fresh_resolve (name : String) : Step.Keeps Fresh (resolve (τ := Memory) name) :=
  fun s hs => hs.of_eq (server_resolve name s) rfl

/-- A table is written in the step before its listings are dropped. -/
theorem fresh_write (name : String) (t : Table) :
    Step.Keeps Fresh (do
      call (Store.write name t)
      dropListings name : Action (Session Memory) Unit) := fun s hs =>
  hs.of_change (fun _ _ hfail => (by cases hfail))
    (fun _ hok => by
      cases hok
      exact preserved_insert s.server name t)
    fun _ => ⟨rfl, rfl⟩

theorem fresh_createCollection (name : String) (width : Nat) (metric : Metric) :
    Step.Keeps Fresh (createCollection (τ := Memory) name width metric) := by
  refine Step.Keeps.bind leaves_ensureConnected.keeps fun _ => Step.Keeps.bind (fun _ hs => hs)
    fun _ s hs => ?_
  refine Step.keeps_bind_at hs fun there s₁ hrun => ?_
  obtain ⟨m, hcontains, rfl⟩ := call_eq_ok_iff.1 hrun
  cases hcontains
  split
  · exact hs
  · rename_i hnew
    -- nothing is held of a table that is not there
    refine hs.of_preserved (preserved_of_get? fun other t _ hget => ?_) rfl
    have hne : name ≠ other := by
      rintro rfl
      rw [Keyed.hasKey_eq_isSome, hget] at hnew
      exact hnew rfl
    exact (Keyed.get?_insert_of_ne hne _ _).trans hget

theorem fresh_addItems (name : String) (items : List Item) :
    Step.Keeps Fresh (addItems (τ := Memory) name items) := by
  refine Step.Keeps.bind leaves_ensureConnected.keeps fun _ => ?_
  split
  · exact (Step.leaves_pure _).keeps
  refine Step.Keeps.bind (fun _ hs => hs) fun _ => Step.Keeps.bind (fun _ hs => hs) fun _ =>
    Step.Keeps.bind (fresh_read name) fun table => Step.Keeps.bind (fun _ hs => hs.of_eq rfl rfl)
      fun batch => Step.Keeps.bind (fresh_resolve name) fun dimension =>
        Step.Keeps.bind (fun _ hs => hs) fun _ => Step.Keeps.bind (fun _ hs => hs) fun width => ?_
  simp only
  split
  · exact Step.Keeps.bind (fun _ hs => hs.of_eq rfl rfl) fun _ => fresh_write name _
  · exact fresh_write name _

theorem leaves_passing (name : String) (filter : Option Filter) :
    Step.Leaves (passing name filter) :=
  (leaves_call (leaves_read name)).bind fun _ => Step.leaves_pure _

theorem finds_of_passing (hcheck : checkFilter filter = .ok ()) {found : List Item}
    (hfetch : passing name filter s = (.ok found, s)) : Finds s.server name filter found := by
  obtain ⟨t, s₂, hread, hpure⟩ := Step.bind_eq_ok_iff.1 hfetch
  obtain ⟨hfound, -⟩ := Prod.mk.inj hpure
  exact ⟨⟨none, filter.getD .empty⟩, t, by rw [compile?_eq, hcheck]; rfl,
    read_eq_ok_iff.2 (call_read_eq_ok_iff.1 hread).1, (Except.ok.inj hfound).symm⟩

theorem fresh_listItems (name : String) (request : PageRequest) (filter : Option Filter) :
    Step.Keeps Fresh (listItems (τ := Memory) name request filter) := by
  intro s hs
  rcases listItems_cases name request filter s with ⟨e, hrun⟩ | ⟨hconn, hsize, hcheck⟩
  · rw [hrun]
    exact hs
  · rw [listItems_eq_materialized hconn hsize hcheck]
    exact hs.materialized hsize (leaves_passing name filter) fun _ => finds_of_passing hcheck

/-- **A page shows items that the table has when it is asked for.** -/
theorem page_of_fresh (hs : Fresh s) {s' : Session Memory} {request : PageRequest}
    {page : Page Item} (hlist : listItems name request filter s = (.ok page, s')) :
    ∃ compiled t, filterCompiler.compile? filter = .ok compiled ∧
      Keyed.get? name s.server.tables = some t ∧
      ∀ item ∈ page.items, item ∈ t.items ∧ compiled.residual.accepts item = true := by
  obtain ⟨-, hsize, hcheck, hpage⟩ := materialized_of_listItems hlist
  obtain ⟨found, offset, ⟨compiled, t, hcompiled, hread, rfl⟩, rfl⟩ :=
    hs.page_of_materialized hsize (leaves_passing name filter)
      (fun _ => finds_of_passing hcheck) hpage
  refine ⟨compiled, t, hcompiled, read_eq_ok_iff.1 hread, fun item hitem => ?_⟩
  exact List.mem_filter.1 (List.mem_of_mem_drop (List.mem_of_mem_take hitem))

theorem fresh_deleteItems (name : String) (ids : List String) (filter : Option Filter) :
    Step.Keeps Fresh (deleteItems (τ := Memory) name ids filter) := by
  refine Step.Keeps.bind leaves_ensureConnected.keeps fun _ => ?_
  split
  · exact (Step.leaves_pure _).keeps
  refine Step.Keeps.bind (fun _ hs => hs) fun compiled =>
    Step.Keeps.bind (fresh_read name) fun table => ?_
  simp only
  split
  · exact (Step.leaves_pure _).keeps
  · exact fresh_write name _

theorem fresh_dropCollection (name : String) :
    Step.Keeps Fresh (dropCollection (τ := Memory) name) := by
  refine Step.Keeps.bind leaves_ensureConnected.keeps fun _ s hs =>
    hs.of_change (fun e m hfail => ?_) (fun m hok => ?_) fun _ => ⟨rfl, rfl⟩
  · have hdrop := atomic_toAction (c := Store.drop (τ := Memory) name) (fun m m' e hfail => ?_)
    · exact hdrop s.server m e hfail
    · simp only [Store.drop] at hfail
      split at hfail <;> cases hfail
      rfl
  · have hdrop := Call.toAction_eq_ok_iff.1 hok
    simp only [Store.drop] at hdrop
    split at hdrop
    · cases hdrop
      exact preserved_of_get? fun _ _ hne hget =>
        (Keyed.get?_erase_of_ne (Ne.symm hne) _).trans hget
    · cases hdrop

/-- **Every call keeps what is held fresh**, whether it succeeds or not. -/
theorem keeps_fresh : (adapter (τ := Memory)).Keeps Fresh fun _ => True where
  connect := Step.Keeps.bind (fun _ hs => hs) fun _ _ hs => hs.of_eq rfl rfl
  disconnect _ _ := upToDate_of_nil rfl
  listCollections := Step.Keeps.bind leaves_ensureConnected.keeps fun _ _ hs => hs
  createCollection := fresh_createCollection
  describe name := Step.Keeps.bind leaves_ensureConnected.keeps fun _ =>
    Step.Keeps.bind (fresh_read name) fun _ => Step.Keeps.bind (fresh_resolve name) fun _ _ hs => hs
  addItems name items _ := fresh_addItems name items
  getItems name ids := (leaves_getItems name ids).keeps
  listItems := fresh_listItems
  updateItems name updates _ := by
    refine Step.Keeps.bind leaves_ensureConnected.keeps fun _ => ?_
    split
    · exact (Step.leaves_pure _).keeps
    · exact Step.Keeps.bind (leaves_getItems name _).keeps fun _ =>
        Step.Keeps.bind (fun _ hs => hs) fun _ => Step.Keeps.bind (fun _ hs => hs)
          fun merged => fresh_addItems name merged
  deleteItems := fresh_deleteItems
  dropCollection := fresh_dropCollection
  countItems name := Step.Keeps.bind leaves_ensureConnected.keeps fun _ =>
    Step.Keeps.bind (fresh_read name) fun _ _ hs => hs
  search name query := Step.Keeps.bind leaves_ensureConnected.keeps fun _ =>
    Step.Keeps.bind (fun _ hs => hs) fun _ => Step.Keeps.bind (fun _ hs => hs) fun _ =>
      Step.Keeps.bind (fresh_read name) fun _ => Step.Keeps.bind (fresh_resolve name) fun _ =>
        Step.Keeps.bind (fun _ hs => hs.of_eq rfl rfl) fun _ _ hs => hs
  metadata _ := (Step.leaves_pure _).keeps

end Columnar

end VectorBridge
