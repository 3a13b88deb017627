import VectorBridge.Family
import VectorBridge.Proofs.Adapter
import VectorBridge.Proofs.Batch
import VectorBridge.Proofs.Filter.Compiling
import VectorBridge.Proofs.Session
/-!
# What the calls of a family keep

What a session learns of widths, holds of listings and asks for vectors is its own.
A property of sessions that none of this touches lasts through every call when the
questions that the call puts to the server keep it, so the calls are walked through
once, for all lasting properties.

An invariant of the server is kept by every call of a family's adapter when the
questions that only read leave the server alone, the ones that remove or create
keep the invariant, and a write keeps it under what the adapter has checked by
then: the ids of a batch are distinct, and the metadata of its items is
admissible. Items of a batch come from the caller or, in an update, from the
server, so stored metadata has to be admissible as well.
-/

namespace VectorBridge

namespace Family

variable {τ Handle Condition Fragment : Type}

/-- The questions that only read leave the server as it is. -/
structure ReadsOnly (F : Family τ Handle Condition Fragment) : Prop where
  ping : Step.Leaves F.ping
  names : Step.Leaves F.names
  count : ∀ name, Step.Leaves (F.count name)
  attach : ∀ name, Step.Leaves (F.attach name)
  inspect : ∀ name, Step.Leaves (F.inspect name)
  declaredWidth : ∀ h, Step.Leaves (F.declaredWidth h)
  probedWidth : ∀ h, Step.Leaves (F.probedWidth h)
  fetch : ∀ h ids, Step.Leaves (F.fetch h ids)
  sample : ∀ h n, Step.Leaves (F.sample h n)
  fetchAll : ∀ h fragment, Step.Leaves (F.fetchAll h fragment)
  readPage : ∀ h fragment request, Step.Leaves (F.readPage h fragment request)
  size : ∀ h, Step.Leaves (F.size h)
  nearest : ∀ h scoring k fragment vectors, Step.Leaves (F.nearest h scoring k fragment vectors)

/-- The questions that change the server keep an invariant, a write when the ids
of the batch are distinct and its metadata is admissible. -/
structure Guards (F : Family τ Handle Condition Fragment) (I : τ → Prop)
    (plain : Metadata → Prop) : Prop where
  create : ∀ c name width metric, Step.Keeps I (F.create c name width metric)
  drop : ∀ name, Step.Keeps I (F.drop name)
  eraseIds : ∀ h ids, Step.Keeps I (F.eraseIds h ids)
  eraseWhere : ∀ h fragment, Step.Keeps I (F.eraseWhere h fragment)
  write : ∀ {name t h items}, I t → F.attach name t = (.ok h, t) →
    (items.map (·.id)).Nodup → (∀ item ∈ items, plain item.metadata) → I (F.write h items t).2
  plain_fetch : ∀ {name t h ids items t'}, I t → F.attach name t = (.ok h, t) →
    F.fetch h ids t = (.ok items, t') → ∀ item ∈ items, plain item.metadata

open Session

variable {F : Family τ Handle Condition Fragment} {I : τ → Prop} {plain : Metadata → Prop}
variable {J : Session τ → Prop}

/-! ## Calls that read

What reads leaves a session as it is, or changes of it what no lasting property is
about. -/

theorem keeps_ask {α : Type} {c : Call τ α} (hc : Step.Leaves c) : Step.Keeps J (call c) :=
  (leaves_call hc).keeps

theorem lasts_resolve (E : Enduring J) (R : F.ReadsOnly) (h : Handle) :
    Step.Keeps J (F.resolve h) :=
  fun s => E (steady_resolveWidth (R.declaredWidth h) (R.probedWidth h) _ s) rfl

theorem leaves_getItems (R : F.ReadsOnly) (name : String) (ids : List String) :
    Step.Leaves (F.getItems name ids) := by
  refine leaves_ensureConnected.bind fun _ => ?_
  split
  · exact Step.leaves_pure _
  · exact (leaves_call (R.attach name)).bind fun h => leaves_call (R.fetch h ids)

theorem leaves_metadata (R : F.ReadsOnly) (name : String) : Step.Leaves (F.metadata name) := by
  unfold metadata
  split
  · exact leaves_ensureConnected.bind fun _ =>
      (leaves_call (R.attach name)).bind fun _ => Step.leaves_pure _
  · exact Step.leaves_pure _

theorem lasts_listItems (U : Unlisted J) (R : F.ReadsOnly) (name : String)
    (request : PageRequest) (filter : Option Filter) :
    Step.Keeps J (F.listItems name request filter) := by
  refine Step.Keeps.bind leaves_ensureConnected.keeps fun _ => Step.Keeps.bind (fun _ hs => hs)
    fun _ => Step.Keeps.bind (fun _ hs => hs) fun compiled =>
      Step.Keeps.bind (keeps_ask (R.attach name)) fun h => ?_
  split
  · exact (leaves_onServer (R.readPage h _ _)).keeps
  · exact U.materialized (Step.Keeps.bind (leaves_onServer (R.fetchAll h _)).keeps
      fun items => (Step.leaves_pure _).keeps)

/-- What a description keeps: it resolves the width of what it opens, or remembers
the width that it is told. -/
theorem keeps_describe (R : F.ReadsOnly) {name : String}
    (hresolve : ∀ {s h scoring}, F.inspect name s.server = (.ok (h, scoring), s.server) → J s →
      J (F.resolve h s).2)
    (hrecord : F.trustsDeclared = true → ∀ {s h scoring w},
      F.inspect name s.server = (.ok (h, scoring), s.server) → scoring.declared = some w → J s →
        J { s with dimensions := s.dimensions.record name w }) :
    Step.Keeps J (F.describe name) := by
  refine Step.Keeps.bind leaves_ensureConnected.keeps fun _ s hs => ?_
  refine Step.keeps_bind_at (keeps_ask (R.inspect name) s hs) fun (h, scoring) s₁ hopen => ?_
  obtain ⟨t, hinspect, rfl⟩ := call_eq_ok_iff.1 hopen
  obtain rfl : t = s.server := by rw [← R.inspect name s.server, hinspect]
  refine Step.keeps_bind_at (keeps_ask (R.size h) _ hs) fun n s₁ hsize => ?_
  obtain rfl : s₁ = s := by rw [← leaves_call (R.size h) s]; exact congrArg Prod.snd hsize.symm
  refine Step.keeps_bind_at (keeps_ask (R.sample h _) _ hs) fun sample s₂ hsample => ?_
  obtain rfl : s₂ = s₁ := by
    rw [← leaves_call (R.sample h Batch.sampleSize) s₁]
    exact congrArg Prod.snd hsample.symm
  split
  · rename_i htrusts
    cases hdeclared : scoring.declared with
    | none => exact hs
    | some w => exact hrecord htrusts hinspect hdeclared hs
  · have hresolved := hresolve hinspect hs
    exact Step.keeps_bind_at hresolved fun d s₃ hrun => by rwa [hrun] at hresolved

theorem lasts_describe (E : Enduring J) (R : F.ReadsOnly) (name : String) :
    Step.Keeps J (F.describe name) :=
  keeps_describe R (fun {_ h _} _ hs => lasts_resolve E R h _ hs)
    fun _ {_ _ _ w} _ _ hs => E.recordWidth name w _ hs

/-- What a search keeps: it resolves the width of what it opens, and asks for vectors. -/
theorem keeps_search (R : F.ReadsOnly) {name : String}
    (hresolve : ∀ {s h scoring}, F.inspect name s.server = (.ok (h, scoring), s.server) → J s →
      J (F.resolve h s).2)
    (hembed : ∀ s requests, J s → J { s with requests }) (query : Query) :
    Step.Keeps J (F.search name query) := by
  refine Step.Keeps.bind leaves_ensureConnected.keeps fun _ => Step.Keeps.bind (fun _ hs => hs)
    fun _ => Step.Keeps.bind (fun _ hs => hs) fun compiled s hs => ?_
  refine Step.keeps_bind_at (keeps_ask (R.inspect name) s hs) fun (h, scoring) s₁ hopen => ?_
  obtain ⟨t, hinspect, rfl⟩ := call_eq_ok_iff.1 hopen
  obtain rfl : t = s.server := by rw [← R.inspect name s.server, hinspect]
  have hresolved := hresolve hinspect hs
  refine Step.keeps_bind_at hresolved fun dimension s₁ hrun => ?_
  rw [hrun] at hresolved
  refine Step.Keeps.bind (fun s hs => hembed s _ hs) (fun vectors => ?_) s₁ hresolved
  -- from here on the server is only read
  have hrest : ∀ total, Step.Keeps J (do
      let found ← call (F.nearest h scoring (searchLimit compiled.residual query.k total)
        compiled.native vectors)
      pure (found.map fun hits => finishHits scoring.ranking hits compiled.residual query.k) :
        Action (Session τ) (List QueryResult)) := fun total =>
    Step.Keeps.bind (keeps_ask (R.nearest h _ _ _ _)) fun _ => (Step.leaves_pure _).keeps
  split
  · exact hrest 0
  · exact Step.Keeps.bind (keeps_ask (R.size h)) hrest

theorem lasts_search (E : Enduring J) (R : F.ReadsOnly) (name : String) (query : Query) :
    Step.Keeps J (F.search name query) :=
  keeps_search R (fun {_ h _} _ hs => lasts_resolve E R h _ hs)
    (fun s requests hs => E (show Steady s { s with requests } from ⟨⟨rfl, rfl⟩, id⟩) rfl hs) query

theorem lasts_drain {name : String} {filter : Option Filter}
    (hlist : ∀ request, Step.Keeps J (F.listItems name request filter)) (fuel : Nat)
    (request : PageRequest) :
    Step.Keeps J
      (Adapter.drain (fun request => F.listItems name request filter) fuel request) := by
  induction fuel generalizing request with
  | zero => exact (Step.leaves_pure _).keeps
  | succ fuel ih =>
    refine Step.Keeps.bind (hlist request) fun page => ?_
    simp only
    split
    · exact (Step.leaves_pure _).keeps
    · exact Step.Keeps.bind (ih _) fun _ => (Step.leaves_pure _).keeps

theorem lasts_filteredIds (R : F.ReadsOnly) {name : String} {f : Filter}
    (hlist : ∀ request, Step.Keeps J (F.listItems name request (some f))) (ids : List String) :
    Step.Keeps J (F.filteredIds name ids f) := by
  unfold filteredIds
  split
  · refine Step.Keeps.bind (hlist _) fun page => ?_
    simp only
    split
    · exact (Step.leaves_pure _).keeps
    · exact Step.Keeps.bind (fun _ hs => hs) fun s =>
        Step.Keeps.bind (lasts_drain hlist _ _) fun _ => (Step.leaves_pure _).keeps
  · exact Step.Keeps.bind (fun _ hs => hs) fun _ =>
      Step.Keeps.bind (leaves_getItems R name ids).keeps fun _ => (Step.leaves_pure _).keeps

/-! ## Calls that write

What a call keeps when the questions that it puts to the server keep it. -/

theorem lasts_createCollection (E : Enduring J)
    (hcreate : ∀ c name width metric, Step.Keeps J (call (F.create c name width metric)))
    (name : String) (width : Nat) (metric : Metric) :
    Step.Keeps J (F.createCollection name width metric) :=
  Step.Keeps.bind leaves_ensureConnected.keeps fun _ => Step.Keeps.bind (fun _ hs => hs) fun _ =>
    Step.Keeps.bind (fun _ hs => hs) fun s =>
      Step.Keeps.bind (hcreate s.context name width metric) fun _ => E.recordWidth name width

theorem lasts_dropCollection (L : Lasting J) (hdrop : ∀ name, Step.Keeps J (call (F.drop name)))
    (name : String) : Step.Keeps J (F.dropCollection name) :=
  Step.Keeps.bind leaves_ensureConnected.keeps fun _ =>
    Step.Keeps.bind (hdrop name) fun _ =>
      Step.Keeps.bind (Enduring.forgetWidth L.enduring name) fun _ =>
        Unlisted.dropListings L.unlisted name

theorem lasts_deleteIds (U : Unlisted J) (R : F.ReadsOnly)
    (hids : ∀ h ids, Step.Keeps J (call (F.eraseIds h ids))) (name : String)
    (ids : List String) : Step.Keeps J (F.deleteIds name ids) := by
  unfold deleteIds
  split
  · exact (Step.leaves_pure _).keeps
  · exact Step.Keeps.bind (keeps_ask (R.attach name)) fun h =>
      Step.Keeps.bind (hids h ids) fun _ => U.dropListings name

theorem lasts_deleteItems (U : Unlisted J) (R : F.ReadsOnly)
    (hids : ∀ h ids, Step.Keeps J (call (F.eraseIds h ids)))
    (hwhere : ∀ h fragment, Step.Keeps J (call (F.eraseWhere h fragment))) (name : String)
    (ids : List String) (filter : Option Filter) :
    Step.Keeps J (F.deleteItems name ids filter) := by
  refine Step.Keeps.bind leaves_ensureConnected.keeps fun _ => ?_
  split
  · exact lasts_deleteIds U R hids name ids
  · refine Step.Keeps.bind (fun _ hs => hs) fun compiled => ?_
    split
    · exact Step.Keeps.bind (keeps_ask (R.attach name)) fun h =>
        Step.Keeps.bind (hwhere h _) fun _ => U.dropListings name
    · exact Step.Keeps.bind
        (lasts_filteredIds R (fun request => lasts_listItems U R name request _) ids)
        fun found => lasts_deleteIds U R hids name found

theorem lasts_addItems (L : Lasting J) (R : F.ReadsOnly)
    (hwrite : ∀ h items, Step.Keeps J (onServer (F.write h items))) (name : String)
    (items : List Item) : Step.Keeps J (F.addItems name items) := by
  refine Step.Keeps.bind leaves_ensureConnected.keeps fun _ => ?_
  split
  · exact (Step.leaves_pure _).keeps
  refine Step.Keeps.bind (fun _ hs => hs) fun _ => Step.Keeps.bind (fun _ hs => hs) fun _ =>
    Step.Keeps.bind (keeps_ask (R.attach name)) fun h =>
      Step.Keeps.bind (Enduring.embedding L.enduring _) fun batch =>
        Step.Keeps.bind (fun _ hs => hs) fun _ =>
          Step.Keeps.bind (lasts_resolve L.enduring R h) fun dimension =>
            Step.Keeps.bind (fun _ hs => hs) fun width => ?_
  -- whether the width is remembered or not, the write comes next
  have hlast : Step.Keeps J (do
      onServer (F.write h batch)
      dropListings name : Action (Session τ) Unit) :=
    Step.Keeps.bind (hwrite h batch) fun _ => Unlisted.dropListings L.unlisted name
  split
  · split
    · exact Step.Keeps.bind (Enduring.recordWidth L.enduring name _) fun _ => hlast
    · exact hlast
  · exact hlast

theorem lasts_updateItems (R : F.ReadsOnly)
    (hadd : ∀ name items, Step.Keeps J (F.addItems name items)) (name : String)
    (updates : List ItemUpdate) : Step.Keeps J (F.updateItems name updates) := by
  refine Step.Keeps.bind leaves_ensureConnected.keeps fun _ => ?_
  split
  · exact (Step.leaves_pure _).keeps
  · exact Step.Keeps.bind (leaves_getItems R name _).keeps fun stored =>
      Step.Keeps.bind (fun _ hs => hs) fun _ => Step.Keeps.bind (fun _ hs => hs) fun merged =>
        hadd name merged

/-! ## What is written -/

/-- What an addition did: nothing on the server, and then it has failed unless
there was nothing to add, or a write of the batch with vectors filled in, whose
answer is that of the addition. -/
def Adds (F : Family τ Handle Condition Fragment) (name : String) (items : List Item)
    (s : Session τ) (r : Result Unit × Session τ) : Prop :=
  (r.2.server = s.server ∧ (r.1 = .ok () → items = [])) ∨
    ∃ h batch, s.connected = true ∧ F.attach name s.server = (.ok h, s.server) ∧
      batch.map Item.bare = items.map Item.bare ∧ (items.map (·.id)).Nodup ∧
      F.write h batch s.server = (r.1, r.2.server) ∧ r.2.connected = true

/-- A batch that is written for some items: each item can be stored, and vectors are
filled in where items have none. -/
structure Accepts (F : Family τ Handle Condition Fragment) (items batch : List Item) : Prop where
  checked : ∀ item ∈ items, F.checkItem item = .ok ()
  bare : batch.map Item.bare = items.map Item.bare
  kept : ∀ item ∈ items, item.embedding.isSome = true → item ∈ batch

/-- What an addition did, with what is known of the batch that was written. -/
def AddsAccepted (F : Family τ Handle Condition Fragment) (name : String) (items : List Item)
    (s : Session τ) (r : Result Unit × Session τ) : Prop :=
  (r.2.server = s.server ∧ (r.1 = .ok () → items = [])) ∨
    ∃ h batch, s.connected = true ∧ F.attach name s.server = (.ok h, s.server) ∧
      F.Accepts items batch ∧ (items.map (·.id)).Nodup ∧
      F.write h batch s.server = (r.1, r.2.server) ∧ r.2.connected = true

/-- **An addition writes its batch or leaves the server alone.** -/
theorem addItems_accepted (R : F.ReadsOnly) (name : String) (items : List Item) (s : Session τ) :
    F.AddsAccepted name items s (F.addItems name items s) := by
  -- a step that leaves the server alone either ends the addition or goes on
  have hstep : ∀ {α : Type} {x : Action (Session τ) α} {f : α → Action (Session τ) Unit}
      {s₀ : Session τ}, Untouched s (x s₀).2 →
      (∀ a s₁, x s₀ = (.ok a, s₁) → Untouched s s₁ → F.AddsAccepted name items s (f a s₁)) →
      F.AddsAccepted name items s ((x >>= f) s₀) := by
    intro α x f s₀ hsame hok
    refine Step.bind_cases (fun e s₁ hrun => ?_) fun a s₁ hrun => ?_
    · rw [hrun] at hsame
      exact .inl ⟨hsame.server, nofun⟩
    · rw [hrun] at hsame
      exact hok a s₁ hrun hsame
  have hstart : ensureConnected s = _ := ensureConnected_apply s
  refine hstep ⟨congrArg (·.2.server) hstart, congrArg (·.2.connected) hstart⟩
    fun _ s₀ hrun hs => ?_
  have hconn : s.connected = true := by
    rw [hstart] at hrun
    split at hrun
    · assumption
    · cases hrun
  split
  · rename_i hempty
    exact .inl ⟨hs.server, fun _ => List.isEmpty_iff.1 hempty⟩
  refine hstep hs fun _ s₁ hids hs => ?_
  obtain ⟨hids, -⟩ := Prod.mk.inj hids
  refine hstep hs fun _ s₂ hchecked hs => ?_
  obtain ⟨hchecked, -⟩ := Prod.mk.inj hchecked
  have hchecked : ∀ item ∈ items, F.checkItem item = .ok () :=
    List.forall_mem_map.1 (Filter.firstError_eq_ok_iff.1 hchecked)
  refine hstep (hs.trans (untouched_call (R.attach name) s₂)) fun h s₃ hattach hs₃ => ?_
  obtain ⟨t, hopen, rfl⟩ := call_eq_ok_iff.1 hattach
  rw [hs.server, show t = s.server from hs₃.server] at hopen
  refine hstep ⟨hs₃.server, hs₃.connected⟩ fun batch s₄ hembed hs => ?_
  obtain ⟨hembed, -⟩ := Prod.mk.inj hembed
  have haccepts : F.Accepts items batch :=
    ⟨hchecked, Batch.map_embedMissing Item.bare (fun _ _ => rfl) (Prod.ext hembed rfl),
      fun _ => Batch.mem_embedMissing (Prod.ext hembed rfl)⟩
  refine hstep hs fun _ s₅ _ hs => ?_
  refine hstep (hs.trans (untouched_resolveWidth (R.declaredWidth h) (R.probedWidth h)
    (F.nameOf h) s₅)) fun dimension s₆ _ hs => ?_
  refine hstep hs fun width s₇ _ hs => ?_
  -- whether the width is remembered or not, the write comes next
  have hwrite : ∀ s₈ : Session τ, Untouched s s₈ → F.AddsAccepted name items s ((do
      onServer (F.write h batch)
      dropListings name) s₈) := by
    intro s₈ hs
    have hconn₈ : s₈.connected = true := hs.connected.trans hconn
    refine .inr ⟨h, batch, hconn, hopen, haccepts, Batch.nodup_of_checkIds hids, ?_⟩
    rw [← hs.server, Step.bind_apply, onServer_apply]
    rcases F.write h batch s₈.server with ⟨e | _, t⟩
    · exact ⟨rfl, hconn₈⟩
    · exact ⟨rfl, hconn₈⟩
  split
  · split
    · exact hstep ⟨hs.server, hs.connected⟩ fun _ s₈ _ hs => hwrite s₈ hs
    · exact hwrite s₇ hs
  · exact hwrite s₇ hs

/-- The same, with vectors left out. -/
theorem addItems_cases (R : F.ReadsOnly) (name : String) (items : List Item) (s : Session τ) :
    F.Adds name items s (F.addItems name items s) := by
  rcases addItems_accepted R name items s with hleft |
    ⟨h, batch, hconn, hattach, haccepts, hids, hwrite, hconn'⟩
  · exact .inl hleft
  · exact .inr ⟨h, batch, hconn, hattach, haccepts.bare, hids, hwrite, hconn'⟩

/-! ## The invariant of the server -/

theorem keeps_addItems (R : F.ReadsOnly) (G : F.Guards I plain) (name : String)
    {items : List Item} (hplain : ∀ item ∈ items, plain item.metadata) :
    Step.Keeps (ServerHas I) (F.addItems name items) := by
  intro s hs
  rcases addItems_cases R name items s with ⟨hserver, -⟩ |
    ⟨h, batch, -, hattach, hbare, hids, hwrite, -⟩
  · rw [ServerHas, hserver]
    exact hs
  · -- the batch that is written has the ids and the metadata of the batch handed over
    have hids' : (batch.map (·.id)).Nodup := by
      rw [Item.map_eq_of_bare (fun _ => rfl) hbare]
      exact hids
    have hkept := G.write hs hattach hids' (Item.forall_of_bare hbare hplain)
    rw [hwrite] at hkept
    exact hkept

/-- What additions of admissible metadata keep of the server, updates of admissible metadata
keep, when the metadata that is stored is admissible. -/
theorem keeps_updateItems (R : F.ReadsOnly) (name : String)
    (hfetch : ∀ {t h ids items t'}, I t → F.attach name t = (.ok h, t) →
      F.fetch h ids t = (.ok items, t') → ∀ item ∈ items, plain item.metadata)
    (hadd : ∀ items : List Item, (∀ item ∈ items, plain item.metadata) →
      Step.Keeps (ServerHas I) (F.addItems name items))
    {updates : List ItemUpdate} (hplain : ∀ u ∈ updates, ∀ m, u.metadata = some m → plain m) :
    Step.Keeps (ServerHas I) (F.updateItems name updates) := by
  refine Step.Keeps.bind leaves_ensureConnected.keeps fun _ => ?_
  split
  · exact (Step.leaves_pure _).keeps
  rename_i hempty
  intro s hs
  have hread := leaves_getItems R name (updates.map (·.id)) s
  refine Step.keeps_bind_at (by rw [hread]; exact hs) fun stored s₁ hrun => ?_
  obtain rfl : s₁ = s := by rw [← hread, hrun]
  -- what is stored was read from the server, so its metadata is admissible
  have hstored : ∀ item ∈ stored, plain item.metadata := by
    have hids : (updates.map (·.id)).isEmpty = false := by simpa using hempty
    rw [getItems, ensureConnected_bind_eq_ok_iff, hids, if_neg Bool.false_ne_true,
      Step.bind_eq_ok_iff] at hrun
    obtain ⟨-, h, s₂, hopen, hread⟩ := hrun
    obtain ⟨t, hattach, rfl⟩ := call_eq_ok_iff.1 hopen
    obtain rfl : t = s₁.server := by rw [← R.attach name s₁.server, hattach]
    obtain ⟨t', hfound, -⟩ := call_eq_ok_iff.1 hread
    exact hfetch hs hattach hfound
  refine Step.keeps_bind_at hs fun c s₂ hrun => ?_
  obtain ⟨-, rfl⟩ := Prod.mk.inj hrun
  refine Step.keeps_bind_at hs fun merged s₃ hrun => ?_
  obtain ⟨hmerge, rfl⟩ := Prod.mk.inj hrun
  refine hadd merged ?_ _ hs
  rw [Batch.mergeUpdates] at hmerge
  split at hmerge
  · cases hmerge
  · exact Batch.metadata_of_applyAll hstored hplain hmerge

theorem keeps_deleteItems (R : F.ReadsOnly) (G : F.Guards I plain) (name : String)
    (ids : List String) (filter : Option Filter) :
    Step.Keeps (ServerHas I) (F.deleteItems name ids filter) :=
  lasts_deleteItems lasting_serverHas.unlisted R (fun h ids => Keeps.call (G.eraseIds h ids))
    (fun h fragment => Keeps.call (G.eraseWhere h fragment)) name ids filter

/-- What additions keep of the server every operation keeps, when the questions that create
and remove do and what is stored has admissible metadata. -/
theorem keeps_of_addItems (R : F.ReadsOnly)
    (hcreate : ∀ c name width metric, Step.Keeps I (F.create c name width metric))
    (hdrop : ∀ name, Step.Keeps I (F.drop name))
    (hids : ∀ h ids, Step.Keeps I (F.eraseIds h ids))
    (hwhere : ∀ h fragment, Step.Keeps I (F.eraseWhere h fragment))
    (hfetch : ∀ {name t h ids items t'}, I t → F.attach name t = (.ok h, t) →
      F.fetch h ids t = (.ok items, t') → ∀ item ∈ items, plain item.metadata)
    (hadd : ∀ name {items : List Item}, (∀ item ∈ items, plain item.metadata) →
      Step.Keeps (ServerHas I) (F.addItems name items)) :
    F.adapter.Keeps (ServerHas I) plain where
  connect := Step.Keeps.bind (keeps_ask R.ping) fun _ _ hs => hs
  disconnect _ hs := hs
  listCollections := Step.Keeps.bind leaves_ensureConnected.keeps fun _ => keeps_ask R.names
  createCollection := lasts_createCollection lasting_serverHas.enduring fun c name width metric =>
    Keeps.call (hcreate c name width metric)
  describe := lasts_describe lasting_serverHas.enduring R
  addItems name _ := hadd name
  getItems name ids := (leaves_getItems R name ids).keeps
  listItems := lasts_listItems lasting_serverHas.unlisted R
  updateItems name _ := keeps_updateItems R name hfetch fun _ => hadd name
  deleteItems := lasts_deleteItems lasting_serverHas.unlisted R
    (fun h ids => Keeps.call (hids h ids)) fun h fragment => Keeps.call (hwhere h fragment)
  dropCollection := lasts_dropCollection lasting_serverHas fun name => Keeps.call (hdrop name)
  countItems name :=
    Step.Keeps.bind leaves_ensureConnected.keeps fun _ => keeps_ask (R.count name)
  search := lasts_search lasting_serverHas.enduring R
  metadata name := (leaves_metadata R name).keeps

/-- **Every operation keeps the invariant of the server**, whether it succeeds or
not. -/
theorem keeps (R : F.ReadsOnly) (G : F.Guards I plain) :
    F.adapter.Keeps (ServerHas I) plain :=
  keeps_of_addItems R G.create G.drop G.eraseIds G.eraseWhere G.plain_fetch
    fun name _ => keeps_addItems R G name

/-! ## Widths that are remembered -/

theorem lasting_remembers : Lasting fun s : Session τ => s.dimensions.Remembers :=
  fun h hs => h.remembers hs

/-- **Every operation keeps a resolver that remembers**, whatever the server does. -/
theorem keeps_remembers (R : F.ReadsOnly) :
    F.adapter.Keeps (fun s => s.dimensions.Remembers) fun _ => True where
  connect := Step.Keeps.bind (keeps_ask R.ping) fun _ _ hs => hs
  disconnect _ hs := hs
  listCollections := Step.Keeps.bind leaves_ensureConnected.keeps fun _ => keeps_ask R.names
  createCollection := lasts_createCollection lasting_remembers.enduring fun _ _ _ _ _ hs => hs
  describe := lasts_describe lasting_remembers.enduring R
  addItems name items _ := lasts_addItems lasting_remembers R (fun _ _ _ hs => hs) name items
  getItems name ids := (leaves_getItems R name ids).keeps
  listItems := lasts_listItems lasting_remembers.unlisted R
  updateItems name updates _ := lasts_updateItems R
    (lasts_addItems lasting_remembers R fun _ _ _ hs => hs) name updates
  deleteItems :=
    lasts_deleteItems lasting_remembers.unlisted R (fun _ _ _ hs => hs) fun _ _ _ hs => hs
  dropCollection := lasts_dropCollection lasting_remembers fun _ _ hs => hs
  countItems name :=
    Step.Keeps.bind leaves_ensureConnected.keeps fun _ => keeps_ask (R.count name)
  search := lasts_search lasting_remembers.enduring R
  metadata name := (leaves_metadata R name).keeps

end Family

/-! ## Edits of a collection

Items are added, changed and removed in many ways, and each of these calls may
fail at any of its steps. Whatever happens, an edit neither connects nor
disconnects, creates no collection and drops none: what the writes and removals
of a family keep of the server is kept by every edit, and a session that was
ready for a call is ready afterwards.
-/

/-- The calls that add, change or remove items of a collection. -/
inductive AdapterCall.Edits (name : String) : AdapterCall → Prop where
  | add (items : List Item) : Edits name (.addItems name items)
  | update (updates : List ItemUpdate) : Edits name (.updateItems name updates)
  | delete (ids : List String) (filter : Option Filter) : Edits name (.deleteItems name ids filter)

/-- A connected session whose server has a property. -/
def Session.Ready {τ : Type} (I : τ → Prop) (s : Session τ) : Prop :=
  s.connected = true ∧ I s.server

namespace Family

variable {τ Handle Condition Fragment : Type}

/-- The questions that change what collections hold keep a property of the
server, whatever they are handed. -/
structure Edits (F : Family τ Handle Condition Fragment) (I : τ → Prop) : Prop where
  write : ∀ h items, Step.Keeps I (F.write h items)
  eraseIds : ∀ h ids, Step.Keeps I (F.eraseIds h ids)
  eraseWhere : ∀ h fragment, Step.Keeps I (F.eraseWhere h fragment)

open Session

variable {F : Family τ Handle Condition Fragment} {I : τ → Prop} {α : Type}

theorem lasting_ready : Lasting (Ready I) := fun h hs =>
  ⟨h.connected.trans hs.1, by rw [h.server]; exact hs.2⟩

theorem ready_onServer {a : Action τ α} (h : Step.Keeps I a) :
    Step.Keeps (Ready I) (onServer a) := fun s hs => ⟨hs.1, h s.server hs.2⟩

theorem ready_call {c : Call τ α} (h : Step.Keeps I c) : Step.Keeps (Ready I) (call c) :=
  ready_onServer fun t ht => by rw [toAction_snd]; exact h t ht

theorem Edits.addItems (E : F.Edits I) (R : F.ReadsOnly) (name : String) (items : List Item) :
    Step.Keeps (Ready I) (F.addItems name items) :=
  lasts_addItems lasting_ready R (fun h items => ready_onServer (E.write h items)) name items

/-- **A session stays ready through an edit**, whether the edit succeeds or not. -/
theorem Edits.perform (E : F.Edits I) (R : F.ReadsOnly) {name : String} {call : AdapterCall}
    (hcall : call.Edits name) : Step.Keeps (Ready I) (F.adapter.perform call) := by
  cases hcall with
  | add items => exact Step.Keeps.bind (E.addItems R name items) fun _ _ hs => hs
  | update updates =>
    exact Step.Keeps.bind (lasts_updateItems R (E.addItems R) name updates) fun _ _ hs => hs
  | delete ids filter =>
    have hdelete := lasts_deleteItems lasting_ready.unlisted R
      (fun h ids => ready_call (E.eraseIds h ids))
      (fun h fragment => ready_call (E.eraseWhere h fragment)) name ids filter
    exact Step.Keeps.bind hdelete fun _ _ hs => hs

/-- **A session stays ready through a history of edits.** -/
theorem Edits.run (E : F.Edits I) (R : F.ReadsOnly) {name : String} {calls : List AdapterCall}
    (hcalls : ∀ call ∈ calls, call.Edits name) {s : Session τ} (hs : Ready I s) :
    Ready I (F.adapter.run calls s).2 := by
  induction calls generalizing s with
  | nil => exact hs
  | cons call calls ih =>
    rw [List.forall_mem_cons] at hcalls
    exact ih hcalls.2 (E.perform R hcalls.1 s hs)

end Family

end VectorBridge
