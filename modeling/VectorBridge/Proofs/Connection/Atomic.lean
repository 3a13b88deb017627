import VectorBridge.Proofs.Connection.Removal
import VectorBridge.Proofs.Family.Atomic
import VectorBridge.Proofs.Milvus.ById
import VectorBridge.Proofs.Weaviate.ById
/-!
# Connections whose edits fail

Servers in memory change a collection as a whole or refuse to, and a removal that is made
of several can fail at the first only, for what it is refused is a collection that is not
there. So an edit of any connection to such a server either succeeds or has changed
nothing.
-/

namespace VectorBridge

open Session

/-! ## Servers in memory -/

namespace Chroma

theorem atomic_changing (collection : String) (f : Stored → Stored) :
    Step.Atomic id (Memory.changing collection f) := by
  intro m m' e h
  unfold Memory.changing at h
  split at h <;> cases h
  rfl

theorem atomic : (family (τ := Memory)).Atomic where
  write _ _ := atomic_toAction (atomic_changing _ _)
  eraseIds _ _ := atomic_changing _ _
  eraseWhere _ _ := atomic_changing _ _

end Chroma

namespace Qdrant

theorem atomic_changing (name : String) (f : Stored → Except TransportError Stored) :
    Step.Atomic id (Memory.changing name f) := by
  intro m m' e h
  unfold Memory.changing at h
  split at h
  · cases h
    rfl
  · split at h <;> cases h
    rfl

theorem atomic : family.Atomic where
  write _ _ := .bind (fun _ => rfl) fun _ => atomic_toAction (atomic_changing _ _)
  eraseIds name _ := show Step.Atomic id (Memory.erase name _) from atomic_changing name _
  eraseWhere name _ := show Step.Atomic id (Memory.eraseWhere name _) from atomic_changing name _

end Qdrant

namespace Postgres

theorem atomic_changing (name : String) (f : Table → Except TransportError Table) :
    Step.Atomic id (Memory.changing name f) := by
  intro m m' e h
  unfold Memory.changing at h
  split at h
  · cases h
    rfl
  · split at h <;> cases h
    rfl

theorem atomic : family.Atomic where
  write _ _ := atomic_toAction (atomic_changing _ _)
  eraseIds name _ := show Step.Atomic id (Memory.erase name _) from atomic_changing name _
  eraseWhere name _ := show Step.Atomic id (Memory.eraseWhere name _) from atomic_changing name _

end Postgres

namespace Milvus

theorem atomic_changing (name : String) (f : Stored → Except TransportError Stored) :
    Step.Atomic id (Memory.changing name f) := by
  intro m m' e h
  unfold Memory.changing at h
  split at h
  · cases h
    rfl
  · split at h <;> cases h
    rfl

/-- Of several removals the first one fails, or none does. -/
theorem atomic_deleteAll (c : Opened) (selectors : List Expr) :
    Step.Atomic id (deleteAll (τ := Memory) c selectors) := by
  intro m m' e h
  cases hs : Keyed.get? c.name m.collections with
  | some s =>
    obtain ⟨m₁, hok⟩ := exists_deleteAll hs selectors
    rw [hok] at h
    cases h
  | none =>
    cases selectors with
    | nil => cases h
    | cons selector rest =>
      have hfirst : Server.delete c.name selector m =
          (.error (.missing s!"collection '{c.name}'"), m) := by
        show Memory.changing _ _ m = _
        rw [Memory.changing, Memory.find?, hs]
      rw [deleteAll, Step.bind_of_error hfirst] at h
      cases h
      rfl

theorem atomic : (family (τ := Memory)).Atomic where
  write c items := .bind (fun m => leaves_assignKeys c items m) fun _ =>
    .bind (fun _ => rfl) fun _ => atomic_toAction (atomic_changing _ _)
  eraseIds c _ := atomic_deleteAll c _
  eraseWhere c _ := show Step.Atomic id (Server.delete c.name _) from atomic_changing c.name _

end Milvus

namespace Weaviate

theorem atomic_changing (name : String) (f : Stored → Stored) :
    Step.Atomic id (Memory.changing name f) := by
  intro m m' e h
  unfold Memory.changing at h
  split at h <;> cases h
  rfl

/-- Of several removals the first one fails, or none does. -/
theorem atomic_deleteAll (name : String) (ids : List String) :
    Step.Atomic id (deleteAll (τ := Memory) name ids) := by
  intro m m' e h
  cases hs : Keyed.get? name m.classes with
  | some s =>
    obtain ⟨m₁, hok⟩ := exists_deleteAll hs ids
    rw [hok] at h
    cases h
  | none =>
    cases ids with
    | nil => cases h
    | cons first rest =>
      have hfirst : Server.delete name (uuidKey first).1 m =
          (.error (.missing s!"class '{name}'"), m) := by
        show Memory.changing _ _ m = _
        rw [Memory.changing, Memory.find?, hs]
      rw [deleteAll, Step.bind_of_error hfirst] at h
      cases h
      rfl

theorem atomic : (family (τ := Memory)).Atomic where
  write _ _ := .bind (fun _ => rfl) fun _ => atomic_toAction (atomic_changing _ _)
  eraseIds _ _ := atomic_deleteAll _ _
  eraseWhere _ _ := atomic_changing _ _

end Weaviate

namespace Columnar

theorem succeeds_write (name : String) (t : Table) :
    Step.Succeeds (call (Store.write (τ := Memory) name t)) := fun _ => ⟨_, _, rfl⟩

/-- A table is written in the last step that concerns the store, and that does not fail. -/
theorem atomic_write (name : String) (t : Table) :
    Step.Atomic server (do
      call (Store.write name t)
      dropListings name : Action (Session Memory) Unit) :=
  (succeeds_write name t).atomic.bind_succeeds fun _ => succeeds_dropListings name

theorem server_resolve (name : String) (s : Session Memory) :
    (resolve name s).2.server = s.server :=
  resolveWidth_server ((leaves_read name).bind fun _ => Step.leaves_pure _)
    ((leaves_read name).bind fun _ => Step.leaves_pure _) name s

theorem atomic_addItems (name : String) (items : List Item) :
    Step.Atomic server (addItems (τ := Memory) name items) := by
  refine .bind (fun s => congrArg server (leaves_ensureConnected s)) fun _ => ?_
  split
  · exact (Step.leaves_pure _).atomic
  refine .bind (fun _ => rfl) fun _ => .bind (fun _ => rfl) fun _ =>
    .bind (fun s => congrArg server (leaves_call (leaves_read name) s)) fun table =>
      .bind (fun _ => rfl) fun batch => .bind (server_resolve name) fun dimension =>
        .bind (fun _ => rfl) fun _ => .bind (fun _ => rfl) fun width => ?_
  simp only
  split
  · exact .bind (fun _ => rfl) fun _ => atomic_write name _
  · exact atomic_write name _

theorem leaves_getItems (name : String) (ids : List String) :
    Step.Leaves (getItems (τ := Memory) name ids) :=
  leaves_ensureConnected.bind fun _ => (leaves_call (leaves_read name)).bind fun _ =>
    Step.leaves_pure _

theorem atomic_updateItems (name : String) (updates : List ItemUpdate) :
    Step.Atomic server (updateItems (τ := Memory) name updates) := by
  refine .bind (fun s => congrArg server (leaves_ensureConnected s)) fun _ => ?_
  split
  · exact (Step.leaves_pure _).atomic
  · exact .bind (fun s => congrArg server (leaves_getItems name _ s)) fun stored =>
      .bind (fun _ => rfl) fun _ => .bind (fun _ => rfl) fun merged => atomic_addItems name merged

theorem atomic_deleteItems (name : String) (ids : List String) (filter : Option Filter) :
    Step.Atomic server (deleteItems (τ := Memory) name ids filter) := by
  refine .bind (fun s => congrArg server (leaves_ensureConnected s)) fun _ => ?_
  split
  · exact (Step.leaves_pure _).atomic
  refine .bind (fun _ => rfl) fun compiled =>
    .bind (fun s => congrArg server (leaves_call (leaves_read name) s)) fun table => ?_
  simp only
  split
  · exact (Step.leaves_pure _).atomic
  · exact atomic_write name _

theorem edits : (adapter (τ := Memory)).EditsAtomically where
  atomic := by
    intro name call hcall
    cases hcall with
    | add items => exact (atomic_addItems name items).bind_succeeds fun _ => Step.succeeds_pure _
    | update updates =>
      exact (atomic_updateItems name updates).bind_succeeds fun _ => Step.succeeds_pure _
    | delete ids filter =>
      exact (atomic_deleteItems name ids filter).bind_succeeds fun _ => Step.succeeds_pure _
  refused := by
    intro name call s hcall hs
    have hnot : ¬ s.connected = true := Bool.eq_false_iff.1 hs
    cases hcall <;> exact Step.bind_of_error (ensureConnected_bind_of_not hnot _) _

end Columnar

/-! ## Connections -/

namespace Connection

/-- Whether a connection is one to a server in memory. -/
def inMemory : Connection → Bool
  | chroma _ | qdrant _ | postgres _ | milvus _ | weaviate _ | tables _ => true
  | chromaRest _ | milvusRest _ | weaviateRest _ | directory _ | unsteady _ => false

/-- An edit of a connection that fails leaves every collection as it was; without a connection
it fails for that reason. -/
structure EditIsAtomic (call : AdapterCall) (c : Connection) : Prop where
  unchanged : ∀ {e c'}, perform call c = (.error e, c') →
    ∀ collection, c'.holding? collection = c.holding? collection
  refused : Managed.isConnected c = false → perform call c = (.error .notConnected, c)

/-- What an adapter does to its sessions it does to connections that wrap them. -/
theorem editIsAtomic_of_adapter {τ : Type} {A : Adapter (Session τ)} {mk : Session τ → Connection}
    (hA : A.EditsAtomically)
    (hperform : ∀ call s, perform call (mk s) = (A.perform call s).map id mk)
    (hconnected : ∀ s, Managed.isConnected (mk s) = s.connected)
    (hholding : ∀ {s s' : Session τ}, s'.server = s.server →
      ∀ collection, (mk s').holding? collection = (mk s).holding? collection)
    {name : String} {call : AdapterCall} (hcall : call.Edits name) (s : Session τ) :
    EditIsAtomic call (mk s) where
  unchanged := by
    intro e c' hfail
    rw [hperform] at hfail
    rcases hrun : A.perform call s with ⟨r, s'⟩
    rw [hrun] at hfail
    obtain ⟨rfl, rfl⟩ := Prod.mk.inj hfail
    exact hholding (hA.atomic hcall s s' e hrun)
  refused := by
    intro hnot
    rw [hconnected] at hnot
    rw [hperform, hA.refused hcall hnot]
    rfl

/-- **An edit that fails changes nothing.** Take a connection to any server in memory, in
whatever state, with widths resolved in any way and any provider of vectors. If a call that
adds, changes or removes items fails, every collection is as it was, and without a
connection it fails for that reason. -/
theorem failed_edits_change_nothing {c : Connection} (hmemory : c.inMemory = true) {name : String}
    {call : AdapterCall} (hcall : call.Edits name) : EditIsAtomic call c := by
  cases c with
  | chroma s =>
    exact editIsAtomic_of_adapter (Chroma.atomic.edits Chroma.readsOnly) (fun _ _ => rfl)
      (fun _ => rfl) (fun h _ => by rw [holding?, holding?, h]) hcall s
  | qdrant s =>
    exact editIsAtomic_of_adapter (Qdrant.atomic.edits Qdrant.readsOnly) (fun _ _ => rfl)
      (fun _ => rfl) (fun h _ => by rw [holding?, holding?, h]) hcall s
  | postgres s =>
    exact editIsAtomic_of_adapter (Postgres.atomic.edits Postgres.readsOnly) (fun _ _ => rfl)
      (fun _ => rfl) (fun h _ => by rw [holding?, holding?, h]) hcall s
  | milvus s =>
    exact editIsAtomic_of_adapter (Milvus.atomic.edits Milvus.readsOnly) (fun _ _ => rfl)
      (fun _ => rfl) (fun h _ => by rw [holding?, holding?, h]) hcall s
  | weaviate s =>
    exact editIsAtomic_of_adapter (Weaviate.atomic.edits Weaviate.readsOnly) (fun _ _ => rfl)
      (fun _ => rfl) (fun h _ => by rw [holding?, holding?, h]) hcall s
  | tables s =>
    exact editIsAtomic_of_adapter Columnar.edits (fun _ _ => rfl) (fun _ => rfl)
      (fun h _ => by rw [holding?, holding?, h]) hcall s
  | chromaRest | milvusRest | weaviateRest | directory | unsteady => cases hmemory

/-! ## A provider that fails -/

/-- A connection whose provider always fails, ready for calls and with one item. -/
def unprovided : Connection :=
  (postgres (.start .empty ⟨none, [], some (.failing "down")⟩)).prepared.adding ["p"]

/-- Two items, of which the second waits for a vector. -/
def halfReady : AdapterCall := .addItems "docs" [sample "q", ⟨"r", some "text", [], none⟩]

/-- The first of the two items could be stored, and is not. -/
theorem failed_edits_change_nothing_of_failing_provider :
    ∃ e c', unprovided.inMemory = true ∧ halfReady.Edits "docs" ∧
      perform halfReady unprovided = (.error e, c') ∧
      (unprovided.holding? "docs").map (fun h => h.items.map (·.id)) = some ["p"] ∧
      (∀ collection, c'.holding? collection = unprovided.holding? collection) ∧
      Managed.isConnected (perform .disconnect unprovided).2 = false ∧
      perform halfReady (perform .disconnect unprovided).2 =
        (.error .notConnected, (perform .disconnect unprovided).2) := by
  have hfails : (perform halfReady unprovided).1.toOption.isNone = true := by decide +kernel
  have hheld : (unprovided.holding? "docs").map (fun h => h.items.map (·.id)) = some ["p"] := by
    decide +kernel
  have hended : Managed.isConnected (perform .disconnect unprovided).2 = false := by decide +kernel
  have hmemory : unprovided.inMemory = true := by decide +kernel
  have hmemory' : (perform .disconnect unprovided).2.inMemory = true := by decide +kernel
  have hedits : halfReady.Edits "docs" := .add _
  have hrefused := (failed_edits_change_nothing hmemory' hedits).refused hended
  rcases hrun : perform halfReady unprovided with ⟨e | a, c'⟩
  · exact ⟨e, c', hmemory, hedits, rfl, hheld,
      (failed_edits_change_nothing hmemory hedits).unchanged hrun, hended, hrefused⟩
  · rw [hrun] at hfails
    cases hfails

end Connection

end VectorBridge
