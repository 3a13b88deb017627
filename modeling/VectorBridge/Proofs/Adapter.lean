import VectorBridge.Proofs.Drain
/-!
# What the calls of an adapter keep

A property of states that every operation of an adapter keeps is kept by every
call, walks and guesses at a model included. Operations that write keep it for
what they may be handed: metadata that is admissible.
-/

namespace VectorBridge

variable {σ : Type}

/-- A call that hands over admissible metadata only. -/
def AdapterCall.Admissible (plain : Metadata → Prop) : AdapterCall → Prop
  | .addItems _ items => ∀ item ∈ items, plain item.metadata
  | .updateItems _ updates => ∀ u ∈ updates, ∀ m, u.metadata = some m → plain m
  | _ => True

theorem AdapterCall.Admissible.mono {plain plain' : Metadata → Prop}
    (h : ∀ m, plain m → plain' m) {call : AdapterCall} (hcall : call.Admissible plain) :
    call.Admissible plain' := by
  cases call with
  | addItems name items => exact fun item hitem => h _ (hcall item hitem)
  | updateItems name updates => exact fun u hu m hm => h m (hcall u hu m hm)
  | _ => trivial

/-- Every call hands over metadata of some kind. -/
theorem AdapterCall.admissible_of_forall {plain : Metadata → Prop} (h : ∀ m, plain m)
    (call : AdapterCall) : call.Admissible plain := by
  cases call with
  | addItems name items => exact fun item _ => h item.metadata
  | updateItems name updates => exact fun _ _ m _ => h m
  | _ => trivial

/-- Every operation of an adapter keeps a property of its states. -/
structure Adapter.Keeps (A : Adapter σ) (J : σ → Prop) (plain : Metadata → Prop) : Prop where
  connect : Step.Keeps J A.connect
  disconnect : Step.Keeps J A.disconnect
  listCollections : Step.Keeps J A.listCollections
  createCollection : ∀ name width metric, Step.Keeps J (A.createCollection name width metric)
  describe : ∀ name, Step.Keeps J (A.describe name)
  addItems : ∀ name {items}, (∀ item ∈ items, plain item.metadata) →
    Step.Keeps J (A.addItems name items)
  getItems : ∀ name ids, Step.Keeps J (A.getItems name ids)
  listItems : ∀ name request filter, Step.Keeps J (A.listItems name request filter)
  updateItems : ∀ name {updates}, (∀ u ∈ updates, ∀ m, u.metadata = some m → plain m) →
    Step.Keeps J (A.updateItems name updates)
  deleteItems : ∀ name ids filter, Step.Keeps J (A.deleteItems name ids filter)
  dropCollection : ∀ name, Step.Keeps J (A.dropCollection name)
  countItems : ∀ name, Step.Keeps J (A.countItems name)
  search : ∀ name query, Step.Keeps J (A.search name query)
  metadata : ∀ name, Step.Keeps J (A.metadata name)

namespace Adapter.Keeps

variable {A : Adapter σ} {J : σ → Prop} {plain : Metadata → Prop}

theorem pagesFrom (h : A.Keeps J plain) (name : String) (filter : Option Filter) (fuel : Nat)
    (request : PageRequest) : Step.Keeps J (A.pagesFrom name filter fuel request) := by
  induction fuel generalizing request with
  | zero => exact (Step.leaves_pure _).keeps
  | succ fuel ih =>
    refine Step.Keeps.bind (h.listItems name request filter) fun page => ?_
    split
    · exact (Step.leaves_pure _).keeps
    · exact Step.Keeps.bind (ih _) fun _ => (Step.leaves_pure _).keeps

theorem embeddingModel (h : A.Keeps J plain) (name : String) :
    Step.Keeps J (A.embeddingModel name) := by
  refine Step.Keeps.bind (h.metadata name) fun metadata =>
    Step.Keeps.bind (fun _ hs => hs) fun s => ?_
  split
  · exact (Step.leaves_pure _).keeps
  · exact Step.Keeps.bind (h.listItems name _ none) fun page =>
      Step.Keeps.bind (fun _ hs => hs) fun _ => (Step.leaves_pure _).keeps

/-- **Every call keeps what the operations keep**, whether it succeeds or not. -/
theorem perform (h : A.Keeps J plain) {call : AdapterCall} (hcall : call.Admissible plain) :
    Step.Keeps J (A.perform call) := by
  have hanswer : ∀ {α : Type} {x : Action σ α} (answer : α → AdapterAnswer),
      Step.Keeps J x → Step.Keeps J (do pure (answer (← x))) :=
    fun answer hx => Step.Keeps.bind hx fun _ _ hs => hs
  have hdone : ∀ {x : Action σ Unit}, Step.Keeps J x →
      Step.Keeps J (do
        x
        pure AdapterAnswer.done) :=
    fun hx => Step.Keeps.bind hx fun _ _ hs => hs
  cases call with
  | connect => exact hdone h.connect
  | disconnect => exact hdone h.disconnect
  | isConnected => exact fun _ hs => hs
  | listCollections => exact hanswer .names h.listCollections
  | createCollection name width metric => exact hdone (h.createCollection name width metric)
  | describe name => exact hanswer .collection (h.describe name)
  | addItems name items => exact hdone (h.addItems name hcall)
  | getItems name ids => exact hanswer .items (h.getItems name ids)
  | listItems name request filter => exact hanswer .page (h.listItems name request filter)
  | walk name size filter => exact hanswer .pages (h.pagesFrom name filter _ _)
  | updateItems name updates => exact hdone (h.updateItems name hcall)
  | deleteItems name ids filter => exact hdone (h.deleteItems name ids filter)
  | dropCollection name => exact hdone (h.dropCollection name)
  | countItems name => exact hanswer .count (h.countItems name)
  | search name query => exact hanswer .results (h.search name query)
  | embeddingModel name => exact hanswer .text (h.embeddingModel name)
  | metadata name => exact hanswer .metadata (h.metadata name)
  | capabilities => exact fun _ hs => hs
  | profileName => exact fun _ hs => hs

/-- **Every run keeps what the operations keep.** -/
theorem run (h : A.Keeps J plain) {calls : List AdapterCall}
    (hcalls : ∀ call ∈ calls, call.Admissible plain) {s : σ} (hs : J s) : J (A.run calls s).2 := by
  induction calls generalizing s with
  | nil => exact hs
  | cons call calls ih =>
    rw [List.forall_mem_cons] at hcalls
    exact ih hcalls.2 (h.perform hcalls.1 s hs)

end Adapter.Keeps

namespace Adapter

variable {A : Adapter σ}

/-- Pages are read by listing items, and by nothing else. -/
theorem pagesFrom_congr {B : Adapter σ} (h : B.listItems = A.listItems) (name : String)
    (filter : Option Filter) (fuel : Nat) (request : PageRequest) :
    B.pagesFrom name filter fuel request = A.pagesFrom name filter fuel request := by
  induction fuel generalizing request with
  | zero => rfl
  | succ fuel ih => simp only [pagesFrom, h, ih]

/-- Adapters that create otherwise make every other call alike. -/
theorem perform_of_create {create : String → Nat → Metric → Action σ Unit} {call : AdapterCall}
    (hcall : ∀ name width metric, call ≠ .createCollection name width metric) :
    ({ A with createCollection := create } : Adapter σ).perform call = A.perform call := by
  cases call with
  | createCollection name width metric => exact absurd rfl (hcall name width metric)
  | walk name size filter =>
    have hpages := pagesFrom_congr (A := A) (B := { A with createCollection := create }) rfl name
      filter maxPages (.first size)
    simp only [perform, hpages]
  | _ => rfl

/-- Adapters that write otherwise, but not at a state, make every call alike there. -/
theorem perform_of_writes {add : String → List Item → Action σ Unit}
    {update : String → List ItemUpdate → Action σ Unit} {s : σ}
    (hadd : ∀ name items, add name items s = A.addItems name items s)
    (hupdate : ∀ name updates, update name updates s = A.updateItems name updates s)
    (call : AdapterCall) :
    ({ A with addItems := add, updateItems := update } : Adapter σ).perform call s =
      A.perform call s := by
  cases call with
  | addItems name items => exact Step.bind_congr_at (hadd name items) fun _ _ _ => rfl
  | updateItems name updates => exact Step.bind_congr_at (hupdate name updates) fun _ _ _ => rfl
  | walk name size filter =>
    have hpages := pagesFrom_congr (A := A)
      (B := { A with addItems := add, updateItems := update }) rfl name filter maxPages
      (.first size)
    simp only [perform, hpages]
  | _ => rfl

end Adapter

end VectorBridge
