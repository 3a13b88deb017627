import VectorBridge.Proofs.Chroma.Storage
import VectorBridge.Proofs.Family.Widths
/-!
# Widths on a Chroma server

A Chroma server takes vectors of any width into any collection, so what the adapter
remembers is all that keeps the vectors of a collection alike. A creation tells it a
width, additions tell it the same one again, and it is forgotten only with the
collection. But a creation finds the collection of its name when there is one, whatever
that holds, and is remembered all the same: a collection is created once more for
another width, and takes vectors of it from then on. Where that does not happen every
collection keeps to one width.
-/

namespace VectorBridge

namespace Chroma

open Session

variable {ws : String → Option Nat} {m m' : Memory} {name : String} {s : Stored}

/-- All vectors of some items have a width. -/
def AllOfWidth (w : Nat) (items : List Item) : Prop :=
  ∀ item ∈ items, ∀ v, item.embedding = some v → v.length = w

/-- Whatever is held under a name has vectors of a width only. -/
def Memory.HoldsWidth (m : Memory) (name : String) (w : Nat) : Prop :=
  ∀ s, Keyed.get? name m.collections = some s → AllOfWidth w s.records

/-- Each collection has a width that is remembered, and no vectors of another. -/
structure Memory.InStep (ws : String → Option Nat) (m : Memory) : Prop where
  numbered : m.Numbered
  known : ∀ name s, Keyed.get? name m.collections = some s →
    ∃ w, ws name = some w ∧ AllOfWidth w s.records

theorem Memory.InStep.holds {w : Nat} (h : m.InStep ws) (hw : ws name = some w) :
    m.HoldsWidth name w := by
  intro s hs
  obtain ⟨w', hw', hall⟩ := h.known name s hs
  obtain rfl := Option.some.inj (hw.symm.trans hw')
  exact hall

/-! ## Changes of a server -/

/-- A change of one collection keeps widths in step when its vectors stay of the width
that is remembered. -/
theorem Memory.InStep.changing {f : Stored → Stored} {id : String} (h : m.InStep ws)
    (hf : ∀ s, (f s).info.name = s.info.name ∧ (f s).info.id = s.info.id ∧
      ((s.records.map (·.id)).Nodup → ((f s).records.map (·.id)).Nodup))
    (hrecords : ∀ s w, Keyed.get? s.info.name m.collections = some s → s.info.id = id →
      ws s.info.name = some w → AllOfWidth w s.records → AllOfWidth w (f s).records) :
    (Memory.changing id f m).2.InStep ws := by
  refine ⟨keeps_changing id hf m h.numbered, ?_⟩
  unfold Memory.changing
  cases hid : m.withId? id with
  | error e => exact h.known
  | ok s =>
    obtain ⟨hget, hid⟩ := h.numbered.get?_of_withId? hid
    refine Keyed.forall_insert h.known ?_
    obtain ⟨w, hw, hall⟩ := h.known _ s hget
    exact ⟨w, hw, hrecords s w hget hid hw hall⟩

theorem Memory.InStep.removing (h : m.InStep ws) (id : String) (p : Item → Bool) :
    (Memory.changing id (fun s => { s with records := s.records.filter p }) m).2.InStep ws :=
  h.changing (fun _ => ⟨rfl, rfl, fun hids => hids.sublist (List.filter_sublist.map _)⟩)
    fun _ _ _ _ _ hall item hitem => hall item (List.mem_filter.1 hitem).1

theorem mem_of_mem_foldl_write {items : List Item} {item : Item}
    (h : item ∈ (items.foldl Stored.write s).records) : item ∈ s.records ∨ item ∈ items := by
  induction items generalizing s with
  | nil => exact .inl h
  | cons new items ih =>
    rcases ih h with h | h
    · rw [Stored.write, place_eq] at h
      rcases placeBy.eq_or_mem_of_mem h with rfl | h
      · exact .inr List.mem_cons_self
      · exact .inl h
    · exact .inr (List.mem_cons_of_mem _ h)

/-- A creation succeeds: the collection of its name is found, or there is one without
records. -/
theorem create_eq_ok (c : Context) (name : String) (w : Nat) (metric : Metric) (m : Memory) :
    ∃ m', family.create c name w metric m = (.ok (), m') ∧
      (m' = m ∨ ∃ info, m'.collections = Keyed.insert name ⟨info, []⟩ m.collections) := by
  cases hget : Keyed.get? name m.collections with
  | some s =>
    have hserver : Server.create name (newMetadata c name metric) m = (.ok s.info, m) := by
      simp only [Server.create, Memory.create, hget]
    exact ⟨m, Step.bind_of_ok hserver _, .inl rfl⟩
  | none =>
    obtain ⟨info, hserver⟩ : ∃ info, Server.create name (newMetadata c name metric) m =
        (.ok info, ⟨Keyed.insert name ⟨info, []⟩ m.collections, m.created + 1⟩) := by
      simp only [Server.create, Memory.create, hget]
      exact ⟨_, rfl⟩
    exact ⟨_, Step.bind_of_ok hserver _, .inr ⟨info, rfl⟩⟩

/-- A creation keeps widths in step when the width it asks for is that of the vectors
which are there. -/
theorem Memory.InStep.create {c : Context} {w : Nat} {metric : Metric} (h : m.InStep ws)
    (hholds : m.HoldsWidth name w) (hrun : family.create c name w metric m = (.ok (), m')) :
    m'.InStep (Function.update ws name (some w)) := by
  have hnumbered := guards.create c name w metric m h.numbered
  rw [hrun] at hnumbered
  refine ⟨hnumbered, fun other t ht => ?_⟩
  obtain ⟨_, hrun', hcases⟩ := create_eq_ok c name w metric m
  obtain rfl := (Prod.mk.inj (hrun.symm.trans hrun')).2
  by_cases hother : other = name
  · subst hother
    refine ⟨w, Function.update_self _ _ _, ?_⟩
    rcases hcases with rfl | ⟨info, hnew⟩
    · exact hholds t ht
    · rw [hnew, Keyed.get?_insert_self] at ht
      cases ht
      exact fun _ hitem => nomatch hitem
  · rw [Function.update_of_ne hother]
    rcases hcases with rfl | ⟨info, hnew⟩
    · exact h.known other t ht
    · rw [hnew, Keyed.get?_insert_of_ne (Ne.symm hother)] at ht
      exact h.known other t ht

/-- What an opened collection is called and known by. -/
theorem attach_eq_ok {h : Info} (hattach : (family (τ := Memory)).attach name m = (.ok h, m')) :
    ∃ s, Keyed.get? name m.collections = some s ∧ h = s.info := by
  cases hget : Keyed.get? name m.collections with
  | none =>
    simp only [family, Server.find, Call.read_apply, Memory.find?, hget, Except.map] at hattach
    cases hattach
  | some s =>
    simp only [family, Server.find, Call.read_apply, Memory.find?, hget, Except.map] at hattach
    cases hattach
    exact ⟨s, rfl, rfl⟩

/-- **What is remembered stays in step with the server**, creations apart. -/
theorem tracks : (family (τ := Memory)).Tracks Memory.InStep where
  reads := readsOnly
  named hstep hattach := by
    obtain ⟨s, hget, rfl⟩ := attach_eq_ok hattach
    exact hstep.numbered.named _ s hget
  attach_of_inspect {m name h scoring} hinspect := by
    obtain ⟨info, m₁, hfind, hpure⟩ := Step.bind_eq_ok_iff.1 hinspect
    cases hpure
    exact hfind
  told htrusts := nomatch htrusts
  declares hstep hattach hnone := by
    obtain ⟨s, hget, -⟩ := attach_eq_ok hattach
    obtain ⟨w, hw, -⟩ := hstep.known _ s hget
    rw [hnone] at hw
    cases hw
  drop {ws m name m'} hstep hdrop := by
    have hnumbered := guards.drop name m hstep.numbered
    rw [hdrop] at hnumbered
    refine ⟨hnumbered, fun other s hs => ?_⟩
    simp only [family, Server.drop, Memory.drop] at hdrop
    split at hdrop
    · cases hdrop
      rw [Keyed.get?_erase] at hs
      split at hs
      · cases hs
      · rename_i hother
        rw [Function.update_of_ne (Ne.symm hother)]
        exact hstep.known other s hs
    · cases hdrop
  drop_error {ws m name e m'} hstep hdrop := by
    simp only [family, Server.drop, Memory.drop] at hdrop
    split at hdrop
    · cases hdrop
    · cases hdrop
      exact hstep
  eraseIds _ h ids _ hstep := hstep.removing h.id fun item => !ids.contains item.id
  eraseWhere _ h w _ hstep := hstep.removing h.id fun item => !satisfies item.metadata w
  write {ws m name h batch w} hstep hattach hw hfits := by
    obtain ⟨s, hget, rfl⟩ := attach_eq_ok hattach
    show Memory.InStep ws (Call.toAction _ m).2
    rw [toAction_snd]
    refine hstep.changing (foldl_write batch) fun s' w' hget' hid hw' hall item hitem v hv => ?_
    -- the collection of that id is the one that was opened
    have hname := hstep.numbered.apart _ _ _ _ hget' hget hid
    obtain rfl : w = w' := Option.some.inj (hw.symm.trans (hname ▸ hw'))
    rcases mem_of_mem_foldl_write hitem with hold | hnew
    · exact hall item hold v hv
    · exact hfits v (List.mem_filterMap.2 ⟨item, hnew, hv⟩)

/-! ## Runs -/

/-- The sessions that calls lead to when no creation succeeds for a width that vectors
of its collection do not have. -/
inductive Conserved (c : Context) : Session Memory → Prop
  | start : Conserved c (.start .empty c)
  | perform {s : Session Memory} (call : AdapterCall) (h : Conserved c s)
      (hcreate : ∀ name width metric, call = .createCollection name width metric →
        (family.adapter.perform call s).1 = .ok .done → s.server.HoldsWidth name width) :
      Conserved c (family.adapter.perform call s).2

theorem keeps_createCollection {s : Session Memory} {width : Nat} {metric : Metric}
    (hs : Tracking Memory.InStep s)
    (hcreate : (family.createCollection name width metric s).1 = .ok () →
      s.server.HoldsWidth name width) :
    Tracking Memory.InStep (family.createCollection name width metric s).2 := by
  by_cases hconn : s.connected = true
  swap
  · rw [Family.createCollection, ensureConnected_bind_of_not hconn]
    exact hs
  rw [Family.createCollection, ensureConnected_bind hconn] at hcreate ⊢
  rcases hcheck : checkCreate width metric with e | ⟨⟨⟩⟩
  · exact hs
  obtain ⟨m, hrun, -⟩ := create_eq_ok s.context name width metric s.server
  have hsteps : (do
      Action.ofResult (.ok ())
      call (family.create (← get).context name width metric)
      recordWidth name width : Action (Session Memory) Unit) s =
        (.ok (), { s with server := m, dimensions := s.dimensions.record name width }) :=
    (Step.bind_of_ok (call_of_ok hrun) _).trans rfl
  rw [hcheck, hsteps] at hcreate
  rw [hsteps]
  exact hs.record (hs.agrees.create (hcreate rfl) hrun)

theorem inStep_empty : Memory.InStep (fun _ => none) .empty where
  numbered :=
    { ascending := List.Pairwise.nil
      named := fun _ _ hs => nomatch hs
      counted := fun _ _ hs => nomatch hs
      apart := fun _ _ _ _ hs => nomatch hs
      distinct := fun _ _ hs => nomatch hs }
  known _ _ hs := nomatch hs

theorem Conserved.tracking {c : Context} {s : Session Memory} (h : Conserved c s) :
    Tracking Memory.InStep s := by
  induction h with
  | start => exact ⟨trivial, inStep_empty⟩
  | @perform s call _ hcreate ih =>
    by_cases hcall : ∃ name width metric, call = .createCollection name width metric
    · obtain ⟨name, width, metric, rfl⟩ := hcall
      show Tracking Memory.InStep ((family.createCollection name width metric >>= fun _ =>
        pure AdapterAnswer.done) s).2
      rw [Step.snd_then_pure]
      refine keeps_createCollection ih fun hok => hcreate name width metric rfl ?_
      exact congrArg Prod.fst (Step.bind_of_ok (Prod.ext hok rfl) fun _ => pure AdapterAnswer.done)
    · -- an adapter that creates nothing makes the same call
      have hrefuse : ∀ (name : String) (width : Nat) (metric : Metric), Step.Keeps
          (Tracking Memory.InStep) (throw .notConnected : Action (Session Memory) Unit) :=
        fun _ _ _ => (Step.leaves_throw _).keeps
      have hkeeps := tracks.keeps hrefuse
      have hkept := hkeeps.perform (AdapterCall.admissible_of_forall (fun _ => trivial) call) s ih
      rwa [Adapter.perform_of_create fun name width metric heq => hcall ⟨name, width, metric, heq⟩]
        at hkept

/-- A collection keeps to a width: its vectors have it, and a batch or a query that has
come as far as its widths and has a vector of another one is refused. -/
structure KeepsTo (s : Session Memory) (name : String) (w : Nat) : Prop where
  stored : s.server.HoldsWidth name w
  adding : ∀ items h batch s₁, s.connected = true →
    family.submit name items s = (.ok (h, batch), s₁) →
      ∀ v ∈ batch.filterMap (·.embedding), v.length ≠ w →
        ∃ n s', n ≠ w ∧ family.addItems name items s = (.error (.dimensionMismatch w n), s')
  searching : ∀ query h vectors, family.Inquiry name query s h vectors →
    ∀ v ∈ vectors, v.length ≠ w →
      ∃ n s', n ≠ w ∧ family.search name query s = (.error (.dimensionMismatch w n), s')

/-- **A collection keeps to one width**, and every vector of another one is refused, as
long as nobody creates the collection once more over vectors of another width. -/
theorem collection_keeps_to_width {c : Context} {s : Session Memory} {name : String}
    {stored : Stored} (h : Conserved c s)
    (hheld : Keyed.get? name s.server.collections = some stored) : ∃ w, KeepsTo s name w := by
  have hs := h.tracking
  obtain ⟨w, hw, -⟩ := hs.agrees.known name stored hheld
  refine ⟨w, hs.agrees.holds hw, ?_, ?_⟩
  · intro items h batch s₁ hconn hsubmit v hv hmisfit
    obtain ⟨hattach, -, requests, rfl⟩ := Family.submit_eq_ok readsOnly hsubmit
    have hrun := tracks.resolve_of_remembered (s := { s with requests := requests })
      (hs.of_same rfl rfl) hattach hw
    obtain ⟨n, hn, hadd⟩ := Family.addItems_of_misfit readsOnly hconn hsubmit hrun hv hmisfit
    exact ⟨n, _, hn, hadd⟩
  · intro query h vectors Q v hv hmisfit
    obtain ⟨scoring, hopen⟩ := Q.opened
    exact Family.search_of_misfit Q
      (tracks.resolve_of_remembered hs (tracks.attach_of_inspect hopen) hw) hv hmisfit

/-- A collection is created and written to, and then created once more for a width. -/
def creatingAgain (w : Nat) : List AdapterCall :=
  [.connect, .createCollection "docs" 1 .cosine, .addItems "docs" [Item.ofWidth "a" 1],
    .createCollection "docs" w .cosine]

/-- What the vectors in a collection are long. -/
def Memory.lengths (m : Memory) (name : String) : Option (List (Option Nat)) :=
  (Keyed.get? name m.collections).map fun s => s.records.map fun item =>
    item.embedding.map List.length

theorem holdsWidth_of_lengths {w : Nat} {lengths : List (Option Nat)}
    (h : m.lengths name = some lengths) (hall : ∀ n ∈ lengths, ∀ k, n = some k → k = w) :
    m.HoldsWidth name w := by
  intro s hs item hitem v hv
  simp only [Memory.lengths, hs, Option.map_some, Option.some.injEq] at h
  refine hall _ (h ▸ List.mem_map_of_mem hitem) _ ?_
  rw [hv]
  rfl

/-- A run on a server without collections. -/
def running (calls : List AdapterCall) : List (Result AdapterAnswer) × Session Memory :=
  family.adapter.run calls (.start .empty .empty)

theorem conserved_creatingAgain : Conserved .empty (running (creatingAgain 1)).2 := by
  have hconnected := (Conserved.start (c := .empty)).perform .connect fun _ _ _ h => nomatch h
  have hcreated := hconnected.perform (.createCollection "docs" 1 .cosine)
    fun name _ _ _ _ stored hstored => nomatch hstored
  have hadded := hcreated.perform (.addItems "docs" [Item.ofWidth "a" 1])
    fun _ _ _ h => nomatch h
  refine hadded.perform (.createCollection "docs" 1 .cosine) fun _ _ _ h _ => ?_
  cases h
  have hlengths : (running ((creatingAgain 1).take 3)).2.server.lengths "docs" = some [some 1] := by
    decide +kernel
  exact holdsWidth_of_lengths hlengths (by decide)

/-- A collection that is created again for the width of its vectors. -/
theorem collection_keeps_to_width_created_again :
    ∃ stored, Conserved .empty (running (creatingAgain 1)).2 ∧
      Keyed.get? "docs" (running (creatingAgain 1)).2.server.collections = some stored ∧
      stored.records.length = 1 ∧ ∃ w, KeepsTo (running (creatingAgain 1)).2 "docs" w := by
  have hlengths : (running (creatingAgain 1)).2.server.lengths "docs" = some [some 1] := by
    decide +kernel
  obtain ⟨stored, hheld, hstored⟩ := Option.map_eq_some_iff.1 hlengths
  refine ⟨stored, conserved_creatingAgain, hheld, ?_,
    collection_keeps_to_width conserved_creatingAgain hheld⟩
  simpa using congrArg List.length hstored

/-- **A collection that is created once more mixes widths**: every call succeeds, and
vectors of two widths are stored. -/
theorem widths_mixed_by_second_creation :
    (running (creatingAgain 2 ++ [.addItems "docs" [Item.ofWidth "b" 2]])).1.map
        (·.toOption.isSome) = [true, true, true, true, true] ∧
      (running (creatingAgain 2 ++ [.addItems "docs" [Item.ofWidth "b" 2]])).2.server.lengths
        "docs" = some [some 1, some 2] := by
  decide +kernel

end Chroma

end VectorBridge
