import VectorBridge.Proofs.Family.Walking
import VectorBridge.Proofs.Weaviate.ById
/-!
# Reading a Weaviate class to its end

A class is read whole in batches, each from the offset where the one before it has ended.
The loop ends with the first batch that comes short, so a server whose batches are always
full would keep it going; one that hands out its objects once comes to the last of them.
-/

namespace VectorBridge

namespace Weaviate

section

variable {τ : Type} [Server τ] {c : Class} {filter : Option Where}

/-- A batch of the objects from an offset on, as items, and the offset of the next batch. A
batch that comes short is the last one. -/
def readBatch (c : Class) (filter : Option Where) (offset : Nat) :
    Call τ (List Item × Option Nat) := do
  let objects ← Server.list c filter offset batchSize
  let items := objects.map Object.toItem
  pure (items, if objects.length < batchSize then none else some (offset + objects.length))

/-- Reading in so many rounds is the loop, when the loop does not make more. -/
theorem readFrom_of_rounds {offset : Nat} {later : List Nat} {t : τ}
    {outcome : Except TransportError (List Item) × τ}
    (h : Rounds (readBatch c filter) offset later t outcome) {rounds : Nat}
    (hrounds : later.length < rounds) : readFrom c filter rounds offset t = outcome := by
  have hrun : ∀ rounds offset (t : τ), readFrom c filter (rounds + 1) offset t =
      (readBatch c filter offset >>= goOn (readFrom c filter rounds)) t := by
    intro rounds offset t
    rw [readFrom, readBatch]
    rcases hlist : Server.list c filter offset batchSize t with ⟨e | objects, t'⟩
    · rw [Step.bind_of_error hlist, Step.bind_of_error (Step.bind_of_error hlist _)]
    · rw [Step.bind_of_ok hlist, Step.bind_of_ok (Step.bind_of_ok hlist _)]
      split <;> rfl
  exact h.eq_of_fuel hrun hrounds

end

variable {m m' : Memory} {c : Class} {s : Stored} {filter : Option Where}

/-- A batch of a class that is there is short where fewer objects are left. -/
theorem readBatch_apply (hs : Keyed.get? c.name m.classes = some s) (offset : Nat) :
    readBatch c filter offset m =
      (.ok ((((s.passing filter).drop offset).take batchSize).map Object.toItem,
        if (s.passing filter).length - offset < batchSize then none
        else some (offset + batchSize)), m) := by
  have hlist : Server.list c filter offset batchSize m = _ :=
    reading_apply hs fun s => ((s.passing filter).drop offset).take batchSize
  rw [readBatch, Step.bind_of_ok hlist]
  simp only [List.length_take, List.length_drop]
  by_cases hshort : (s.passing filter).length - offset < batchSize
  · rw [if_pos hshort, if_pos (Nat.lt_of_le_of_lt (Nat.min_le_right _ _) hshort)]
    rfl
  · rw [if_neg hshort, Nat.min_eq_left (Nat.le_of_not_lt hshort), if_neg (Nat.lt_irrefl _)]
    rfl

/-- The items of some objects from an offset on. -/
def itemsFrom (found : List Object) (offset : Nat) : Call Memory (List Item) :=
  pure ((found.drop offset).map Object.toItem)

/-- A loop is at an offset, and `n` objects are left. -/
def AtOffset (m : Memory) (found : List Object) (n offset : Nat) (m' : Memory) : Prop :=
  m' = m ∧ n = found.length - offset

/-- The objects from an offset on are those of a batch and those from the next one on. -/
theorem itemsFrom_eq_readBatch (hs : Keyed.get? c.name m.classes = some s) {n offset : Nat}
    (h : AtOffset m (s.passing filter) n offset m') :
    itemsFrom (s.passing filter) offset m' =
      (readBatch c filter offset >>= goOn (itemsFrom (s.passing filter))) m' := by
  obtain ⟨rfl, -⟩ := h
  rw [Step.bind_of_ok (readBatch_apply hs offset)]
  by_cases hshort : (s.passing filter).length - offset < batchSize
  · rw [if_pos hshort, List.take_of_length_le (by rw [List.length_drop]; omega)]
    rfl
  · rw [if_neg hshort, goOn_some_apply, itemsFrom, itemsFrom, Step.pure_apply, Step.pure_apply,
      Except.map, ← List.map_append, ← List.drop_drop, List.take_append_drop]

theorem atOffset_of_readBatch (hs : Keyed.get? c.name m.classes = some s) {n offset next : Nat}
    {items : List Item} {m'' : Memory} (h : AtOffset m (s.passing filter) n offset m')
    (hround : readBatch c filter offset m' = (.ok (items, some next), m'')) :
    ∃ k < n, AtOffset m (s.passing filter) k next m'' := by
  obtain ⟨rfl, rfl⟩ := h
  have hbatch : 0 < batchSize := by decide
  rw [readBatch_apply hs] at hround
  split at hround
  · cases hround
  · cases hround
    exact ⟨_, by omega, rfl, rfl⟩

/-- **A class is read to its end**, however many objects it has: each that passes is read
once, and in order. A class that is not there fails the first round. -/
theorem rounds_readFrom (m : Memory) (c : Class) (filter : Option Where) :
    ∃ later, Rounds (readBatch c filter) 0 later m (readFrom c filter (Server.rounds m) 0 m) ∧
      ∀ s, Keyed.get? c.name m.classes = some s → readFrom c filter (Server.rounds m) 0 m =
        (.ok ((s.passing filter).map Object.toItem), m) := by
  cases hs : Keyed.get? c.name m.classes with
  | none =>
    have hlist : Server.list c filter 0 batchSize m =
        (.error (.missing s!"class '{c.name}'"), m) := by
      show (Except.map _ (m.find? c.name), m) = _
      rw [Memory.find?, hs]
      rfl
    have hbatch : readBatch c filter 0 m = (.error (.missing s!"class '{c.name}'"), m) := by
      rw [readBatch, Step.bind_of_error hlist]
    have hread : readFrom c filter (Server.rounds m) 0 m = _ :=
      readFrom_of_rounds (.failed hbatch) (Nat.succ_pos _)
    rw [hread]
    exact ⟨[], .failed hbatch, fun s hs => by cases hs⟩
  | some s =>
    have hstart : AtOffset m (s.passing filter) (s.passing filter).length 0 m := ⟨rfl, rfl⟩
    obtain ⟨later, hrounds, hlength, -⟩ :=
      exists_rounds (itemsFrom_eq_readBatch hs) (atOffset_of_readBatch hs) hstart
    have hread := readFrom_of_rounds hrounds
      (Nat.lt_of_le_of_lt hlength (length_passing_lt hs filter))
    rw [hread]
    refine ⟨later, hrounds, fun s' hs' => ?_⟩
    obtain rfl := Option.some.inj hs'
    rfl

/-- **What walks are shown on a Weaviate server**: pages, and everything at once. -/
theorem walks : storage.Walks (family (τ := Memory)) Memory.Named (fun _ => True)
    fun _ => True where
  length_lt ho := storage.length_passing_lt ho.held
  pages := by
    intro m name c s ho filter
    have hname : s.definition.name = className name := ho.inv _ _ ho.held
    have hread : ∀ size offset, ∃ objects,
        (Server.list c.definition filter offset size).toAction m = (.ok objects, m) ∧
          objects.map Object.toItem = ((storage.passing s filter).drop offset).take size :=
      fun size offset => ⟨_, list_of_opened ho hname filter offset size, by
        rw [passing_eq, List.map_take, List.map_drop]⟩
    exact Storage.exists_rounds_pageAt
      (fun size offset => (Server.list c.definition filter offset size).toAction)
      (fun objects => objects.map Object.toItem) (fun _ _ => rfl) hread
  fetchAll ho filter :=
    ⟨_, fetchAll_of_opened ho (ho.inv _ _ ho.held) filter, okIff_ok trivial _⟩

end Weaviate

end VectorBridge
