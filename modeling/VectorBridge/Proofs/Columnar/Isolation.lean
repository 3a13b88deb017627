import VectorBridge.Proofs.Columnar.Freshness
import VectorBridge.Proofs.Family.Isolation
/-!
# Tables are apart

A table is read and written under its name, so every step of an operation on it is local to it.
Listings that are held are those that reading the table anew would give.
-/

namespace VectorBridge

namespace Columnar

open Session

/-- What is seen of a table. -/
def seen (m : Memory) (name : String) : Option Table := Keyed.get? name m.tables

variable {name : String} {m m' : Memory} {s s' : Session Memory}

/-! ## Questions to the store -/

theorem local_find (name : String) : Local seen name (Store.read (τ := Memory) name) :=
  local_read fun m m' h => by
    have h : Keyed.get? name m.tables = Keyed.get? name m'.tables := h
    rw [Memory.find?, Memory.find?, h]

theorem local_contains (name : String) : Local seen name (Store.contains (τ := Memory) name) :=
  local_read fun m m' h => by
    have h : Keyed.get? name m.tables = Keyed.get? name m'.tables := h
    rw [Keyed.hasKey_eq_isSome, Keyed.hasKey_eq_isSome, h]

theorem local_write (name : String) (t : Table) :
    Local seen name (Store.write (τ := Memory) name t) :=
  local_of_entry (fun _ => .ok (some t)) Memory.mk (fun _ => rfl) fun _ => rfl

theorem local_drop (name : String) : Local seen name (Store.drop (τ := Memory) name) := by
  refine local_of_entry
    (·.elim (.error (.missing s!"table '{name}'")) fun _ => .ok none) Memory.mk (fun _ => rfl)
    fun m => ?_
  simp only [Store.drop, Memory.find?]
  cases Keyed.get? name m.tables <;> rfl

/-! ## Operations -/

section Operations

variable {K : Comparison (seen) name} {T : Memory → Memory → Prop} {α : Type}
variable {P : α → α → Prop}

theorem read_bind {f g : Table → Action (Session Memory) α} (hs : K.Linked T s s')
    (hf : ∀ t, K.Runs P T (f t s) (g t s')) :
    K.Runs P T ((call (Store.read name) >>= f) s) ((call (Store.read name) >>= g) s') :=
  hs.ask_bind (leaves_read name) (leaves_read name) (local_find name (.rfl hs.same)).1 hf

theorem runs_resolve (hs : K.Linked T s s') : K.Runs Eq T (resolve name s) (resolve name s') := by
  have hleaves : ∀ f : Table → Option Nat, Step.Leaves (do pure (f (← Store.read name)) :
      Call Memory (Option Nat)) := fun f => (leaves_read name).bind fun _ => Step.leaves_pure _
  have hlocal : ∀ f : Table → Option Nat, Local seen name (do pure (f (← Store.read name)) :
      Call Memory (Option Nat)) := fun f => (local_find name).bind fun _ => local_pure _
  exact hs.resolveWidth (hleaves _) (hleaves _) (hleaves _) (hleaves _)
    (hlocal _ (.rfl hs.same)).1 (hlocal _ (.rfl hs.same)).1

theorem runs_createCollection (hs : K.Linked T s s') (width : Nat) (metric : Metric) :
    K.Runs Eq (fun _ _ => True) (createCollection name width metric s)
      (createCollection name width metric s') := by
  refine hs.ensureConnected_bind <| hs.check_bind fun _ _ =>
    hs.ask_bind (fun _ => rfl) (fun _ => rfl) (local_contains name (.rfl hs.same)).1 fun there => ?_
  split
  · exact .error rfl hs.any
  · exact (hs.changeBy (local_write name _ (.rfl hs.same))).bind_same
      fun _ _ _ _ _ hs => hs.recordWidth width

theorem runs_describe (hs : K.Linked T s s') :
    K.Runs Eq (fun _ _ => True) (describe name s) (describe name s') :=
  hs.ensureConnected_bind <| read_bind hs.any fun _ =>
    (runs_resolve hs.any).then_pure fun _ _ h => by rw [h]

/-- A table is written in the step before its listings are dropped. -/
theorem runs_write (hs : K.Linked T s s') (t : Table) :
    K.Runs Eq (fun _ _ => True)
      ((do
        call (Store.write name t)
        dropListings name : Action (Session Memory) Unit) s)
      ((do
        call (Store.write name t)
        dropListings name : Action (Session Memory) Unit) s') :=
  (hs.changeBy (local_write name t (.rfl hs.same))).bind_same fun _ _ _ _ _ hs => hs.dropListings

theorem runs_addItems (hs : K.Linked T s s') (items : List Item) :
    K.Runs Eq (fun _ _ => True) (addItems name items s) (addItems name items s') := by
  refine hs.any.ensureConnected_bind ?_
  split
  · exact .ok rfl hs.any
  refine hs.any.check_bind fun _ _ => hs.any.check_bind fun _ _ => read_bind hs.any fun table =>
    (hs.any.embedding rfl (hs.discreet.asks_embedMissing K.isWatched none items)).bind_same
      fun batch _ _ _ _ hs => (runs_resolve hs).bind_same fun dimension _ _ _ _ hs =>
        hs.check_bind fun _ _ => hs.check_bind fun width _ => ?_
  simp only
  split
  · exact (hs.recordWidth width).bind_same fun _ _ _ _ _ hs => runs_write hs _
  · exact runs_write hs _

theorem runs_getItems (hs : K.Linked T s s') (ids : List String) :
    K.Runs Eq T (getItems name ids s) (getItems name ids s') :=
  hs.ensureConnected_bind <| read_bind hs fun _ => .ok rfl hs

theorem runs_listItems (hs : K.Linked T s s') (hfresh : Fresh s) (hfresh' : Fresh s')
    (request : PageRequest) (filter : Option Filter) :
    K.Runs Eq T (listItems name request filter s) (listItems name request filter s') := by
  refine hs.ensureConnected_bind <| hs.check_bind fun _ hvalid =>
    hs.check_bind fun compiled hc => ?_
  have hleaves : Step.Leaves (do pure (compiled.postFilter (← call (Store.read name)).items) :
      Action (Session Memory) (List Item)) :=
    (leaves_call (leaves_read name)).bind fun _ => Step.leaves_pure _
  have hheld : ∀ {s : Session Memory}, Fresh s → s.heldOr (listingKey name filter)
      ((do pure (compiled.postFilter (← call (Store.read name)).items) :
        Action (Session Memory) (List Item)) s).1 =
      ((do pure (compiled.postFilter (← call (Store.read name)).items) :
        Action (Session Memory) (List Item)) s).1 := by
    refine fun hs => hs.heldOr fun found hfinds => ?_
    obtain ⟨compiled', t, hc', hread, rfl⟩ := hfinds
    rw [hc] at hc'
    cases hc'
    rw [Step.bind_of_ok (call_of_ok hread)]
    rfl
  exact hs.materialized (PageRequest.validate_eq_ok_iff.1 hvalid) hleaves hleaves
    (read_bind hs fun _ => .ok rfl hs : K.Runs Eq T _ _).outcome (hheld hfresh) (hheld hfresh')

theorem runs_updateItems (hs : K.Linked T s s') (updates : List ItemUpdate) :
    K.Runs Eq (fun _ _ => True) (updateItems name updates s) (updateItems name updates s') := by
  refine hs.any.ensureConnected_bind ?_
  split
  · exact .ok rfl hs.any
  · refine (runs_getItems hs.any _).bind_same fun stored s₁ s₁' _ _ hs => ?_
    rw [Step.bind_of_ok (Step.get_apply s₁), Step.bind_of_ok (Step.get_apply s₁'),
      hs.named.context]
    exact hs.check_bind fun merged _ => runs_addItems hs merged

theorem runs_deleteItems (hs : K.Linked T s s') (ids : List String) (filter : Option Filter) :
    K.Runs Eq (fun _ _ => True) (deleteItems name ids filter s)
      (deleteItems name ids filter s') := by
  refine hs.any.ensureConnected_bind ?_
  split
  · exact .ok rfl hs.any
  refine hs.any.check_bind fun compiled _ => read_bind hs.any fun table => ?_
  generalize targets table ids ((selective filter).map fun _ => compiled.residual) = gone
  split
  · exact .ok rfl hs.any
  · exact runs_write hs _

theorem runs_dropCollection (hs : K.Linked T s s') :
    K.Runs Eq (fun _ _ => True) (dropCollection name s) (dropCollection name s') :=
  hs.ensureConnected_bind <| (hs.changeBy (local_drop name (.rfl hs.same))).bind_same
    fun _ _ _ _ _ hs => hs.forgetWidth.bind_same fun _ _ _ _ _ hs => hs.dropListings

theorem runs_countItems (hs : K.Linked T s s') :
    K.Runs Eq T (countItems name s) (countItems name s') :=
  hs.ensureConnected_bind <| read_bind hs fun _ => .ok rfl hs

theorem runs_search (hs : K.Linked T s s') (query : Query) :
    K.Runs Eq T (search name query s) (search name query s') :=
  hs.ensureConnected_bind <| hs.check_bind fun _ _ => hs.check_bind fun _ _ =>
    read_bind hs fun _ => (runs_resolve hs).bind_same fun dimension _ _ _ _ hs =>
      (hs.embedding rfl (hs.discreet.asks_queryVectors K.isWatched none query.input dimension)
        ).then_pure fun _ _ h => by rw [h]

end Operations

/-! ## The adapter -/

/-- **Every operation on a table keeps to it.** -/
theorem isolates (p : String → Bool) :
    (adapter (τ := Memory)).Isolates Fresh (Concordant seen p) p where
  keeps := keeps_fresh
  context h := h.context
  connect h := h.connect fun _ => ⟨_, rfl⟩
  disconnect h := h.disconnect
  listCollections := leaves_ensureConnected.bind fun _ => leaves_call fun _ => rfl
  createCollection _ width metric := isolated_of_runs fun _ _ _ h =>
    runs_createCollection h width metric
  describe _ := isolated_of_runs fun _ _ _ h => runs_describe h
  addItems _ items := isolated_of_runs fun _ _ _ h => runs_addItems h items
  getItems _ ids := isolated_of_runs fun _ _ _ h => runs_getItems h ids
  listItems _ request filter := isolated_of_runs fun _ hl hr h =>
    runs_listItems h hl hr request filter
  updateItems _ updates := isolated_of_runs fun _ _ _ h => runs_updateItems h updates
  deleteItems _ ids filter := isolated_of_runs fun _ _ _ h => runs_deleteItems h ids filter
  dropCollection _ := isolated_of_runs fun _ _ _ h => runs_dropCollection h
  countItems _ := isolated_of_runs fun _ _ _ h => runs_countItems h
  search _ query := isolated_of_runs fun _ _ _ h => runs_search h query
  metadata _ := Step.isolated_pure none

end Columnar

end VectorBridge
