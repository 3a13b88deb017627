import VectorBridge.Proofs.Family.Again
import VectorBridge.Proofs.Family.Invariant
/-!
# Edits that fail

An edit asks and checks before it changes anything: ids, widths and keys, and vectors from
a provider that may fail. What changes the server comes last and changes all or nothing,
so an edit that fails has changed nothing there. What a session learns of widths, holds of
listings and asks for vectors on the way is its own.

So what holds of a server is kept by every addition when it is kept by those that succeed,
after all that they have checked of their batch.
-/

namespace VectorBridge

namespace Step

variable {ε σ ρ α β : Type} {view : σ → ρ} {x : ExceptT ε (StateM σ) α}
variable {f : α → ExceptT ε (StateM σ) β}

/-- Where the step fails, what is seen of the state is as it was. -/
def Atomic (view : σ → ρ) (x : ExceptT ε (StateM σ) α) : Prop :=
  ∀ (s s' : σ) (e : ε), x s = (.error e, s') → view s' = view s

/-- The step does not fail. -/
def Succeeds (x : ExceptT ε (StateM σ) α) : Prop := ∀ s, ∃ a s', x s = (.ok a, s')

theorem Atomic.of_view (hx : ∀ s, view (x s).2 = view s) : Atomic view x := by
  intro s s' e h
  have hview := hx s
  rwa [h] at hview

theorem Leaves.atomic (hx : Leaves x) : Atomic view x :=
  .of_view fun s => congrArg view (hx s)

theorem Succeeds.atomic (hx : Succeeds x) : Atomic view x := by
  intro s s' e h
  obtain ⟨a, t, hok⟩ := hx s
  rw [hok] at h
  cases h

/-- A sequence is atomic when what is seen of the state changes in its last step. -/
theorem Atomic.bind (hx : ∀ s, view (x s).2 = view s) (hf : ∀ a, Atomic view (f a)) :
    Atomic view (x >>= f) := by
  intro s s' e
  refine bind_cases (P := fun r => r = (.error e, s') → view s' = view s) ?_ ?_
  · intro e₁ s₁ hfail h
    cases h
    exact Atomic.of_view hx s s' e hfail
  · intro a s₁ hok h
    have hview := hx s
    rw [hok] at hview
    exact (hf a s₁ s' e h).trans hview

/-- A sequence is atomic when its first step is and what comes after does not fail. -/
theorem Atomic.bind_succeeds (hx : Atomic view x) (hf : ∀ a, Succeeds (f a)) :
    Atomic view (x >>= f) := by
  intro s s' e
  refine bind_cases (P := fun r => r = (.error e, s') → view s' = view s) ?_ ?_
  · intro e₁ s₁ hfail h
    cases h
    exact hx s s' e hfail
  · intro a s₁ _ h
    obtain ⟨b, t, hok⟩ := hf a s₁
    rw [hok] at h
    cases h

theorem succeeds_pure (a : α) : Succeeds (pure a : ExceptT ε (StateM σ) α) := fun s => ⟨a, s, rfl⟩

end Step

namespace Session

variable {τ α : Type}

theorem atomic_onServer {a : Action τ α} (h : Step.Atomic id a) :
    Step.Atomic server (onServer a) := by
  intro s s' e hfail
  rw [onServer_apply] at hfail
  obtain ⟨hresult, rfl⟩ := Prod.mk.inj hfail
  exact h _ _ e (Prod.ext hresult rfl)

theorem atomic_toAction {c : Call τ α} (h : Step.Atomic id c) : Step.Atomic id c.toAction := by
  intro t t' e hfail
  rw [Call.toAction] at hfail
  rcases hc : c t with ⟨e' | a, t₁⟩ <;> rw [hc] at hfail <;> cases hfail
  exact h _ _ _ hc

theorem atomic_call {c : Call τ α} (h : Step.Atomic id c) : Step.Atomic server (call c) :=
  atomic_onServer (atomic_toAction h)

theorem succeeds_dropListings (name : String) : Step.Succeeds (dropListings (τ := τ) name) :=
  fun _ => ⟨_, _, rfl⟩

/-- Listings are held beside the server. -/
theorem unlisted_server (t : τ) : Unlisted fun s : Session τ => s.server = t :=
  fun _ _ hs => hs

end Session

/-- The edits of an adapter are atomic, and there are none without a connection. -/
structure Adapter.EditsAtomically {τ : Type} (A : Adapter (Session τ)) : Prop where
  atomic : ∀ {name call}, AdapterCall.Edits name call →
    Step.Atomic Session.server (A.perform call)
  refused : ∀ {name call} {s : Session τ}, AdapterCall.Edits name call → s.connected = false →
    A.perform call s = (.error .notConnected, s)

namespace Family

variable {τ Handle Condition Fragment : Type}

/-- The questions that change what collections hold change all or nothing. -/
structure Atomic (F : Family τ Handle Condition Fragment) : Prop where
  write : ∀ h items, Step.Atomic id (F.write h items)
  eraseIds : ∀ h ids, Step.Atomic id (F.eraseIds h ids)
  eraseWhere : ∀ h fragment, Step.Atomic id (F.eraseWhere h fragment)

open Session

variable {F : Family τ Handle Condition Fragment}

theorem Atomic.addItems (A : F.Atomic) (R : F.ReadsOnly) (name : String) (items : List Item) :
    Step.Atomic Session.server (F.addItems name items) := by
  intro s s' e hfail
  have hcases := addItems_cases R name items s
  rw [hfail] at hcases
  rcases hcases with ⟨hserver, -⟩ | ⟨h, batch, -, -, -, -, hwrite, -⟩
  · exact hserver
  · exact A.write h batch _ _ e hwrite

theorem Atomic.updateItems (A : F.Atomic) (R : F.ReadsOnly) (name : String)
    (updates : List ItemUpdate) : Step.Atomic Session.server (F.updateItems name updates) := by
  refine .bind (fun s => congrArg server (leaves_ensureConnected s)) fun _ => ?_
  split
  · exact (Step.leaves_pure _).atomic
  · exact .bind (fun s => congrArg server (leaves_getItems R name _ s)) fun stored =>
      .bind (fun _ => rfl) fun _ => .bind (fun _ => rfl) fun merged => A.addItems R name merged

theorem Atomic.deleteIds (A : F.Atomic) (R : F.ReadsOnly) (name : String) (ids : List String) :
    Step.Atomic Session.server (F.deleteIds name ids) := by
  unfold Family.deleteIds
  split
  · exact (Step.leaves_pure _).atomic
  · exact .bind (fun s => congrArg server (leaves_call (R.attach name) s)) fun h =>
      (atomic_call (A.eraseIds h ids)).bind_succeeds fun _ => succeeds_dropListings name

theorem Atomic.deleteItems (A : F.Atomic) (R : F.ReadsOnly) (name : String) (ids : List String)
    (filter : Option Filter) : Step.Atomic Session.server (F.deleteItems name ids filter) := by
  refine .bind (fun s => congrArg server (leaves_ensureConnected s)) fun _ => ?_
  split
  · exact A.deleteIds R name ids
  · refine .bind (fun _ => rfl) fun compiled => ?_
    split
    · exact .bind (fun s => congrArg server (leaves_call (R.attach name) s)) fun h =>
        (atomic_call (A.eraseWhere h _)).bind_succeeds fun _ => succeeds_dropListings name
    · -- the ids are looked up before any of them is removed
      exact .bind (fun s => lasts_filteredIds R
          (fun request => lasts_listItems (unlisted_server s.server) R name request _) ids s rfl)
        fun found => A.deleteIds R name found

/-- **An edit that fails leaves the server as it was.** -/
theorem Atomic.edits (A : F.Atomic) (R : F.ReadsOnly) : F.adapter.EditsAtomically where
  atomic := by
    intro name call hcall
    cases hcall with
    | add items => exact (A.addItems R name items).bind_succeeds fun _ => Step.succeeds_pure _
    | update updates =>
      exact (A.updateItems R name updates).bind_succeeds fun _ => Step.succeeds_pure _
    | delete ids filter =>
      exact (A.deleteItems R name ids filter).bind_succeeds fun _ => Step.succeeds_pure _
  refused := by
    intro name call s hcall hs
    have hnot : ¬ s.connected = true := Bool.eq_false_iff.1 hs
    cases hcall <;> exact Step.bind_of_error (ensureConnected_bind_of_not hnot _) _

/-- **What every addition that succeeds keeps of the server, every addition keeps.** -/
theorem Atomic.keeps_addItems (A : F.Atomic) (R : F.ReadsOnly) {I : τ → Prop} {name : String}
    {items : List Item}
    (hwrite : ∀ {s h batch log d s₁ width t}, I s.server →
      F.Addition name items s h batch log d s₁ width t → I t) :
    Step.Keeps (ServerHas I) (F.addItems name items) := by
  intro s hs
  rcases hadd : F.addItems name items s with ⟨e | _, s'⟩
  · show I s'.server
    rw [A.addItems R name items s s' e hadd]
    exact hs
  · cases hitems : items.isEmpty with
    | true =>
      rw [Family.addItems, ensureConnected_bind_eq_ok_iff, hitems, if_pos rfl] at hadd
      obtain ⟨-, hpure⟩ := hadd
      cases hpure
      exact hs
    | false =>
      obtain ⟨h, batch, log, d, s₁, width, t, hsteps, rfl⟩ := exists_addition R hitems hadd
      exact hwrite hs hsteps

end Family

end VectorBridge
