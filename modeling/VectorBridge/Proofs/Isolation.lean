import VectorBridge.Proofs.Family.Names
/-!
# Runs that differ in some collections

Two runs make the same calls about the collections that are watched, and other calls about the
rest. Whether the rest shows is a question of two kinds of steps. A call about a watched
collection has to answer the same in both runs and to leave the same of that collection; a call
about another one has to leave every watched collection alone. Both follow when each operation,
from sessions that agree on the collection it names, answers the same, leaves them in agreement
on that collection and touches no other. `Comparison` follows an operation through its steps in
two such sessions, `Isolated` is what is kept of it, and `Isolates` takes it from operations to
calls and from calls to runs.
-/

namespace VectorBridge

/-- Steps that go together with the same answers and for the same reasons have the same
outcome. -/
theorem Step.Paired.outcome {ε σ ρ α : Type} {R R' : σ → ρ → Prop} {r : Except ε α × σ}
    {r' : Except ε α × ρ} (h : Step.Paired Eq R Eq R' r r') : r.1 = r'.1 := by
  cases h with
  | ok hanswers _ => exact congrArg Except.ok hanswers
  | error hreasons _ => exact congrArg Except.error hreasons

/-! ## Requests to the provider -/

namespace EmbeddingRequest

variable {α β : Type} {p q : String → Bool} {name : String} {log log' : List EmbeddingRequest}

/-- The requests about some collections. -/
def about (p : String → Bool) (log : List EmbeddingRequest) : List EmbeddingRequest :=
  log.filter fun request => p request.collection

theorem about_of_le (hle : ∀ name, p name = true → q name = true)
    (h : about q log = about q log') : about p log = about p log' := by
  have htwice : ∀ log, about p (about q log) = about p log := by
    intro log
    rw [about, about, List.filter_filter]
    refine List.filter_congr fun request _ => ?_
    rw [Bool.and_eq_left_iff_imp]
    exact hle request.collection
  rw [← htwice log, h, htwice]

/-- What is asked about one collection only: from logs that do not differ in what is watched it
comes out the same, and of what was asked about others nothing changes. -/
structure Asks (p : String → Bool) (name : String) (x : Action (List EmbeddingRequest) α) :
    Prop where
  alike : ∀ {log log'}, about p log = about p log' →
    Step.Alike (fun l l' => about p l = about p l') (x log) (x log')
  others : ∀ {q l}, q name = false → Step.Keeps (fun log => about q log = l) x

theorem asks_pure (a : α) : Asks p name (pure a) :=
  ⟨fun h => ⟨rfl, h⟩, fun _ => (Step.leaves_pure a).keeps⟩

theorem Asks.bind {x : Action (List EmbeddingRequest) α}
    {f : α → Action (List EmbeddingRequest) β} (hx : Asks p name x) (hf : ∀ a, Asks p name (f a)) :
    Asks p name (x >>= f) where
  alike h := (hx.alike h).bind fun a _ _ _ _ hlog => (hf a).alike hlog
  others hq := .bind (hx.others hq) fun a => (hf a).others hq

end EmbeddingRequest

open EmbeddingRequest (about Asks)

/-- What the provider answers about the collections that are watched does not depend on what it
was asked about others. -/
def Context.Discreet (p : String → Bool) (c : Context) : Prop :=
  ∀ provider, c.embedder = some provider → ∀ request : EmbeddingRequest,
    p request.collection = true → ∀ log log', about p log = about p log' →
      provider.answer log request = provider.answer log' request

namespace Context

variable {p : String → Bool} {name : String} {c : Context}

/-- There is nothing to hide where everything is watched. -/
theorem discreet_all (c : Context) : c.Discreet fun _ => true := by
  intro provider _ request _ log log' h
  have hall : ∀ log, about (fun _ => true) log = log := fun log =>
    List.filter_eq_self.2 fun _ _ => rfl
  rw [hall, hall] at h
  rw [h]

namespace Discreet

theorem asks_embed (h : c.Discreet p) (hp : p name = true) (texts : List String)
    (metadata : Option Metadata) : Asks p name (c.embed name texts metadata) := by
  unfold embed
  cases hprovider : c.embedder with
  | none => exact ⟨fun hlog => ⟨rfl, hlog⟩, fun _ _ hlog => hlog⟩
  | some provider =>
    refine ⟨fun {log log'} hlog => ⟨?_, ?_⟩, fun hq log hlog => ?_⟩
    · have hanswer := h provider hprovider ⟨name, texts, c.modelHint name metadata none⟩ hp log log'
        hlog
      simp only [hanswer]
    · simp only [about, List.filter_cons, hp, if_true]
      exact congrArg _ hlog
    · simp only [about, List.filter_cons, hq, Bool.false_eq_true, if_false]
      exact hlog

theorem asks_embedMissing (h : c.Discreet p) (hp : p name = true) (metadata : Option Metadata)
    (items : List Item) : Asks p name (Batch.embedMissing c name metadata items) := by
  simp only [Batch.embedMissing]
  split
  · exact EmbeddingRequest.asks_pure items
  · exact (h.asks_embed hp _ metadata).bind fun _ => EmbeddingRequest.asks_pure _

theorem asks_queryVectors (h : c.Discreet p) (hp : p name = true) (metadata : Option Metadata)
    (input : QueryInput) (d : Dimension) :
    Asks p name (Batch.queryVectors c name metadata input d) := by
  have hvectors : Asks p name (Batch.inputVectors c name metadata input) := by
    cases input with
    | vectors vs => exact EmbeddingRequest.asks_pure vs
    | texts texts => exact h.asks_embed hp texts metadata
  rw [Batch.queryVectors_eq]
  refine hvectors.bind fun vectors => ?_
  cases Batch.checkVectors d vectors with
  | ok u => exact EmbeddingRequest.asks_pure vectors
  | error e => exact ⟨fun hlog => ⟨rfl, hlog⟩, fun _ => (Step.leaves_throw e).keeps⟩

end Discreet

end Context

/-! ## Sessions that agree -/

namespace Session

variable {τ View α β : Type} {look : τ → String → View} {p q p' q' : String → Bool}
variable {name : String} {s s' s'' : Session τ}

/-- Sessions that agree on the collections in `p`: the same is seen of them on the servers, the
same widths are remembered of them, and the provider was asked the same about those in `q`. What
is held of listings may differ. -/
structure Agree (look : τ → String → View) (p q : String → Bool) (s s' : Session τ) : Prop where
  server : ∀ name, p name = true → look s.server name = look s'.server name
  widths : ∀ name, p name = true →
    s.dimensions.cachedWidth? name = s'.dimensions.cachedWidth? name
  requests : about q s.requests = about q s'.requests
  connected : s.connected = s'.connected
  context : s.context = s'.context

namespace Agree

theorem refl (s : Session τ) : Agree look p q s s :=
  ⟨fun _ _ => rfl, fun _ _ => rfl, rfl, rfl, rfl⟩

theorem symm (h : Agree look p q s s') : Agree look p q s' s :=
  ⟨fun n hn => (h.server n hn).symm, fun n hn => (h.widths n hn).symm, h.requests.symm,
    h.connected.symm, h.context.symm⟩

theorem trans (h : Agree look p q s s') (h' : Agree look p q s' s'') : Agree look p q s s'' :=
  ⟨fun n hn => (h.server n hn).trans (h'.server n hn),
    fun n hn => (h.widths n hn).trans (h'.widths n hn), h.requests.trans h'.requests,
    h.connected.trans h'.connected, h.context.trans h'.context⟩

theorem mono (h : Agree look p q s s') (hp : ∀ n, p' n = true → p n = true)
    (hq : ∀ n, q' n = true → q n = true) : Agree look p' q' s s' :=
  ⟨fun n hn => h.server n (hp n hn), fun n hn => h.widths n (hp n hn),
    EmbeddingRequest.about_of_le hq h.requests, h.connected, h.context⟩

end Agree

/-- What two runs have in common all along: they agree on the collections that are watched, they
remember widths, and the provider does not mix these collections up with others. -/
structure Concordant (look : τ → String → View) (p : String → Bool) (s s' : Session τ) : Prop
    extends Agree look p p s s' where
  remembers : s.dimensions.Remembers ∧ s'.dimensions.Remembers
  discreet : s.context.Discreet p

/-- Where a server is always there, connections are made alike. -/
theorem Concordant.connect {c : Call τ α} (h : Concordant look p s s')
    (hc : ∀ t, ∃ a, c t = (.ok a, t)) :
    Concordant look p ((call c >>= fun _ => markConnected) s).2
      ((call c >>= fun _ => markConnected) s').2 := by
  obtain ⟨a, hrun⟩ := hc s.server
  obtain ⟨a', hrun'⟩ := hc s'.server
  rw [Step.bind_of_ok (call_of_ok hrun), Step.bind_of_ok (call_of_ok hrun')]
  exact ⟨⟨h.server, h.widths, h.requests, rfl, h.context⟩, h.remembers, h.discreet⟩

theorem Concordant.disconnect (h : Concordant look p s s') :
    Concordant look p (disconnect s).2 (disconnect s').2 :=
  ⟨⟨h.server, h.widths, h.requests, rfl, h.context⟩, h.remembers, h.discreet⟩

/-! ## What a width is resolved to -/

/-- The width that is remembered, else the one that is declared, else the one that is probed. -/
def resolved (cached : Option Nat) (declared probed : Result (Option Nat)) : Result Dimension :=
  match cached, declared with
  | some w, _ => .ok (.known w)
  | none, .error e => .error e
  | none, .ok (some w) => .ok (.known w)
  | none, .ok none => probed.map .ofOption

/-- What remembers widths resolves one as said, and remembers what it finds. -/
theorem resolveWidth_apply {declared probed : Call τ (Option Nat)} (hs : s.dimensions.Remembers)
    (hd : Step.Leaves declared) (hp : Step.Leaves probed) {r : Result Dimension}
    (hr : r = resolved (s.dimensions.cachedWidth? name) (declared.toAction s.server).1
      (probed.toAction s.server).1) :
    ∃ dimensions, resolveWidth name declared probed s = (r, { s with dimensions }) ∧
      dimensions.Remembers ∧ dimensions.cachedWidth? =
        Function.update s.dimensions.cachedWidth? name (r.toOption.bind Dimension.toOption) := by
  have hdeclared : (declared.toAction s.server).2 = s.server := by rw [toAction_snd, hd]
  have hprobed : (probed.toAction s.server).2 = s.server := by rw [toAction_snd, hp]
  -- a width that is not found is not remembered either
  have hnone : s.dimensions.cachedWidth? name = none →
      s.dimensions.cachedWidth? = Function.update s.dimensions.cachedWidth? name none := fun h => by
    rw [← h, Function.update_eq_self]
  cases hdims : s.dimensions with
  | fixed d | custom history decide =>
    rw [hdims] at hs
    cases hs
  | cached ws =>
    rw [hdims] at hr hnone
    cases hget : Keyed.get? name ws with
    | some w =>
      have hself := Function.update_eq_self name (DimensionResolver.cached ws).cachedWidth?
      rw [show (DimensionResolver.cached ws).cachedWidth? name = some w from hget] at hr hself
      subst hr
      refine ⟨.cached ws, ?_, trivial, hself.symm⟩
      rw [resolveWidth_of_cached hdims hget, ← hdims]
      rfl
    | none =>
      rw [show (DimensionResolver.cached ws).cachedWidth? name = none from hget] at hr
      have hrecord := fun w => DimensionResolver.Remembers.cachedWidth?_record (r := .cached ws)
        trivial name w
      rcases hask : declared.toAction s.server with ⟨e | _ | w, t⟩ <;> rw [hask] at hdeclared hr <;>
        obtain rfl : t = s.server := hdeclared
      · subst hr
        refine ⟨.cached ws, ?_, trivial, hnone hget⟩
        rw [resolveWidth_of_error hdims hget hask, ← hdims]
        rfl
      · simp only [resolveWidth, hdims, DimensionResolver.resolve, hget]
        rw [Step.state_bind_apply, hask]
        simp only
        rw [Step.state_bind_apply]
        rcases hprobe : probed.toAction s.server with ⟨e | _ | w, t⟩ <;>
          rw [hprobe] at hprobed hr <;> obtain rfl : t = s.server := hprobed <;> subst hr
        · exact ⟨_, rfl, trivial, hnone hget⟩
        · exact ⟨_, rfl, trivial, hnone hget⟩
        · exact ⟨_, rfl, trivial, hrecord w⟩
      · subst hr
        refine ⟨_, resolveWidth_of_declared hdims hget hask, ?_, ?_⟩
        · rw [hdims]
          trivial
        · rw [hdims]
          exact hrecord w

/-- Listings that are up to date are those that are fetched. -/
theorem UpToDate.heldOr {finds : τ → String → Option Filter → List Item → Prop}
    {filter : Option Filter} {fetched : Result (List Item)} (h : s.UpToDate finds)
    (hfinds : ∀ found, finds s.server name filter found → fetched = .ok found) :
    s.heldOr (listingKey name filter) fetched = fetched := by
  unfold Session.heldOr
  split
  · rename_i hheld
    exact (hfinds _ (h.finds_of_held hheld)).symm
  · rfl

/-- Calls of the same outcome have the same outcome as actions. -/
theorem toAction_fst {c c' : Call τ α} {t t' : τ} (h : (c t).1 = (c' t').1) :
    (c.toAction t).1 = (c'.toAction t').1 := by
  rw [Call.toAction, Call.toAction]
  rcases hrun : c t with ⟨e | a, t₁⟩ <;> rcases hrun' : c' t' with ⟨e' | a', t₁'⟩ <;>
    rw [hrun, hrun'] at h <;> cases h <;> rfl

/-- Calls that do the same do the same as actions. -/
theorem alike_toAction {R : τ → τ → Prop} {c c' : Call τ α} {t t' : τ}
    (h : Step.Alike R (c t) (c' t')) : Step.Alike R (c.toAction t) (c'.toAction t') := by
  refine ⟨toAction_fst h.1, ?_⟩
  rw [toAction_snd, toAction_snd]
  exact h.2

/-! ## One operation in two sessions -/

/-- Where an operation on one collection starts in two runs, and the collections that are
watched, this one among them. -/
structure Comparison (look : τ → String → View) (name : String) where
  left : Session τ
  right : Session τ
  watched : String → Bool
  isWatched : watched name = true

/-- Two servers that come from two others: the same is seen of one collection, and of the rest
what was seen before. -/
structure Confined (look : τ → String → View) (name : String) (t t' t₁ t₁' : τ) : Prop where
  named : look t₁ name = look t₁' name
  left : ∀ other, other ≠ name → look t other = look t₁ other
  right : ∀ other, other ≠ name → look t' other = look t₁' other

theorem Confined.rfl {t t' : τ} (h : look t name = look t' name) : Confined look name t t' t t' :=
  ⟨h, fun _ _ => Eq.refl _, fun _ _ => Eq.refl _⟩

namespace Comparison

/-- Two sessions on the way: they agree on the collection that is named, on the others they are
as at the start, and their servers are related. -/
structure Linked (K : Comparison look name) (T : τ → τ → Prop) (s s' : Session τ) : Prop where
  named : Agree look (· == name) K.watched s s'
  left : Agree look (· != name) (fun other => other != name && K.watched other) K.left s
  right : Agree look (· != name) (fun other => other != name && K.watched other) K.right s'
  servers : T s.server s'.server
  remembers : s.dimensions.Remembers ∧ s'.dimensions.Remembers
  discreet : s.context.Discreet K.watched

/-- Two steps go together: both succeed with related answers, or both fail for the same
reason. -/
def Runs (K : Comparison look name) (Q : α → β → Prop) (T : τ → τ → Prop) :
    Result α × Session τ → Result β × Session τ → Prop :=
  Step.Paired Q (K.Linked T) Eq (K.Linked fun _ _ => True)

namespace Linked

variable {K : Comparison look name} {T T' : τ → τ → Prop} {P : β → β → Prop}

theorem imp (h : K.Linked T s s') (hT : T' s.server s'.server) : K.Linked T' s s' :=
  { h with servers := hT }

theorem any (h : K.Linked T s s') : K.Linked (fun _ _ => True) s s' := h.imp trivial

theorem same (h : K.Linked T s s') : look s.server name = look s'.server name :=
  h.named.server name (beq_self_eq_true name)

/-- One more step on the way. -/
theorem next {s₁ s₁' : Session τ} (h : K.Linked T s s')
    (hnamed : Agree look (· == name) K.watched s₁ s₁')
    (hleft : Agree look (· != name) (fun other => other != name && K.watched other) s s₁)
    (hright : Agree look (· != name) (fun other => other != name && K.watched other) s' s₁')
    (hservers : T' s₁.server s₁'.server)
    (hremembers : s₁.dimensions.Remembers ∧ s₁'.dimensions.Remembers) :
    K.Linked T' s₁ s₁' where
  named := hnamed
  left := h.left.trans hleft
  right := h.right.trans hright
  servers := hservers
  remembers := hremembers
  discreet := hleft.context ▸ h.discreet

/-- Steps go together when they have the same outcome. -/
theorem runs {r r' : Result α × Session τ} (h : K.Linked T r.2 r'.2) (hout : r.1 = r'.1) :
    K.Runs Eq T r r' := by
  obtain ⟨out, s⟩ := r
  obtain ⟨out', s'⟩ := r'
  cases hout
  cases out with
  | error e => exact .error rfl h.any
  | ok a => exact .ok rfl h

theorem ensureConnected_bind {f g : Unit → Action (Session τ) β} (h : K.Linked T s s')
    (hf : K.Runs P T' (f () s) (g () s')) :
    K.Runs P T' ((ensureConnected >>= f) s) ((ensureConnected >>= g) s') := by
  by_cases hconn : s.connected = true
  · rw [Session.ensureConnected_bind hconn, Session.ensureConnected_bind (h.named.connected ▸ hconn)]
    exact hf
  · rw [ensureConnected_bind_of_not hconn,
      ensureConnected_bind_of_not (h.named.connected ▸ hconn)]
    exact .error rfl h.any

/-- A check that does not look at the session comes out the same. -/
theorem check_bind {r : Result α} {f g : α → Action (Session τ) β} (h : K.Linked T s s')
    (hf : ∀ a, r = .ok a → K.Runs P T' (f a s) (g a s')) :
    K.Runs P T' ((Action.ofResult r >>= f) s) ((Action.ofResult r >>= g) s') := by
  cases r with
  | error e => exact .error rfl h.any
  | ok a => exact hf a rfl

/-- A question that is put to the server and answered the same. -/
theorem read {a a' : Action τ α} (h : K.Linked T s s') (ha : Step.Leaves a)
    (ha' : Step.Leaves a') (hout : (a s.server).1 = (a' s'.server).1) :
    K.Runs Eq T (onServer a s) (onServer a' s') := by
  refine runs ?_ hout
  rw [leaves_onServer ha, leaves_onServer ha']
  exact h

theorem ask {c c' : Call τ α} (h : K.Linked T s s') (hc : Step.Leaves c) (hc' : Step.Leaves c')
    (hout : (c s.server).1 = (c' s'.server).1) : K.Runs Eq T (call c s) (call c' s') := by
  exact h.read (fun t => by rw [toAction_snd, hc]) (fun t => by rw [toAction_snd, hc'])
    (toAction_fst hout)

/-- Questions whose answers are related, where what comes after is told them. -/
theorem open_bind {γ : Type} {Q : α → γ → Prop} {c : Call τ α} {c' : Call τ γ}
    {f : α → Action (Session τ) β} {g : γ → Action (Session τ) β} (h : K.Linked T s s')
    (hc : Step.Leaves c) (hc' : Step.Leaves c')
    (hpair : Step.Paired Q (fun _ _ => True) Eq (fun _ _ => True) (c s.server) (c' s'.server))
    (hf : ∀ a a', c s.server = (.ok a, s.server) → c' s'.server = (.ok a', s'.server) → Q a a' →
      K.Runs P T' (f a s) (g a' s')) :
    K.Runs P T' ((call c >>= f) s) ((call c' >>= g) s') := by
  have hrun : c s.server = ((c s.server).1, s.server) := Prod.ext rfl (hc s.server)
  have hrun' : c' s'.server = ((c' s'.server).1, s'.server) := Prod.ext rfl (hc' s'.server)
  rw [hrun, hrun'] at hpair
  rcases hout : (c s.server).1 with e | a <;> rcases hout' : (c' s'.server).1 with e' | a' <;>
    rw [hout, hout'] at hpair <;> rw [hout] at hrun <;> rw [hout'] at hrun' <;> cases hpair
  case error _ hreasons =>
    subst hreasons
    rw [Step.bind_of_error (call_of_error hrun), Step.bind_of_error (call_of_error hrun')]
    exact .error rfl h.any
  case ok _ hanswers =>
    rw [Step.bind_of_ok (call_of_ok hrun), Step.bind_of_ok (call_of_ok hrun')]
    exact hf a a' hrun hrun' hanswers

theorem ask_bind {c c' : Call τ α} {f g : α → Action (Session τ) β} (h : K.Linked T s s')
    (hc : Step.Leaves c) (hc' : Step.Leaves c') (hout : (c s.server).1 = (c' s'.server).1)
    (hf : ∀ a, K.Runs P T' (f a s) (g a s')) :
    K.Runs P T' ((call c >>= f) s) ((call c' >>= g) s') :=
  (h.ask hc hc' hout).bind_same fun a s₁ s₁' hrun hrun' _ => by
    obtain rfl : s₁ = s := by rw [← leaves_call hc s, hrun]
    obtain rfl : s₁' = s' := by rw [← leaves_call hc' s', hrun']
    exact hf a

/-- A change of the server that has the same outcome and is confined to the collection that is
named. -/
theorem change {a a' : Action τ α} (h : K.Linked T s s')
    (hrun : Step.Alike (Confined look name s.server s'.server) (a s.server) (a' s'.server)) :
    K.Runs Eq (fun _ _ => True) (onServer a s) (onServer a' s') := by
  obtain ⟨hout, hconfined⟩ := hrun
  refine runs (h.next ?_ ?_ ?_ trivial h.remembers) hout
  · refine { h.named with server := fun n hn => ?_ }
    rw [eq_of_beq hn]
    exact hconfined.named
  · exact ⟨fun n hn => hconfined.left n (bne_iff_ne.1 hn), fun _ _ => rfl, rfl, rfl, rfl⟩
  · exact ⟨fun n hn => hconfined.right n (bne_iff_ne.1 hn), fun _ _ => rfl, rfl, rfl, rfl⟩

theorem changeBy {c c' : Call τ α} (h : K.Linked T s s')
    (hrun : Step.Alike (Confined look name s.server s'.server) (c s.server) (c' s'.server)) :
    K.Runs Eq (fun _ _ => True) (call c s) (call c' s') :=
  h.change (alike_toAction hrun)

/-- What the provider is asked about the collection that is named. -/
theorem embedding {f f' : Context → Action (List EmbeddingRequest) α} (h : K.Linked T s s')
    (hsame : f = f') (hf : Asks K.watched name (f s.context)) :
    K.Runs Eq T (embedding f s) (embedding f' s') := by
  subst hsame
  obtain ⟨hout, hlog⟩ := hf.alike h.named.requests
  have hothers : ∀ log, about (fun other => other != name && K.watched other) log =
      about (fun other => other != name && K.watched other) (f s.context log).2 := fun log =>
    (hf.others (by simp) log rfl).symm
  rw [h.named.context] at hout hlog hothers
  refine runs (h.next { h.named with requests := ?_ }
    ⟨fun _ _ => rfl, fun _ _ => rfl, ?_, rfl, rfl⟩ ⟨fun _ _ => rfl, fun _ _ => rfl, ?_, rfl, rfl⟩
    h.servers h.remembers) ?_
  · rw [embedding_apply, embedding_apply, h.named.context]
    exact hlog
  · rw [embedding_apply, h.named.context]
    exact hothers s.requests
  · exact hothers s'.requests
  · rw [embedding_apply, embedding_apply, h.named.context]
    exact hout

/-- What is held of listings makes no difference. -/
theorem relist (h : K.Linked T s s') (listings listings' : Listings Item) :
    K.Linked T { s with listings } { s' with listings := listings' } :=
  h.next { h.named with } ⟨fun _ _ => rfl, fun _ _ => rfl, rfl, rfl, rfl⟩
    ⟨fun _ _ => rfl, fun _ _ => rfl, rfl, rfl, rfl⟩ h.servers h.remembers

/-- The same is learned of the width of the collection that is named. -/
theorem learn {d d' : DimensionResolver} (h : K.Linked T s s') {w : Option Nat}
    (hremembers : d.Remembers ∧ d'.Remembers)
    (hd : d.cachedWidth? = Function.update s.dimensions.cachedWidth? name w)
    (hd' : d'.cachedWidth? = Function.update s'.dimensions.cachedWidth? name w) :
    K.Linked T { s with dimensions := d } { s' with dimensions := d' } := by
  refine h.next { h.named with widths := fun n hn => ?_ }
    ⟨fun _ _ => rfl, fun n hn => ?_, rfl, rfl, rfl⟩
    ⟨fun _ _ => rfl, fun n hn => ?_, rfl, rfl, rfl⟩ h.servers hremembers
  · rw [eq_of_beq hn, hd, hd', Function.update_self, Function.update_self]
  · rw [hd, Function.update_of_ne (bne_iff_ne.1 hn)]
  · rw [hd', Function.update_of_ne (bne_iff_ne.1 hn)]

theorem recordWidth (h : K.Linked T s s') (width : Nat) :
    K.Runs Eq T (recordWidth name width s) (recordWidth name width s') :=
  .ok rfl (h.learn ⟨h.remembers.1.record name width, h.remembers.2.record name width⟩
    (h.remembers.1.cachedWidth?_record name width) (h.remembers.2.cachedWidth?_record name width))

theorem forgetWidth (h : K.Linked T s s') :
    K.Runs Eq T (forgetWidth name s) (forgetWidth name s') :=
  .ok rfl (h.learn ⟨h.remembers.1.forget name, h.remembers.2.forget name⟩
    (h.remembers.1.cachedWidth?_forget name) (h.remembers.2.cachedWidth?_forget name))

theorem dropListings (h : K.Linked T s s') :
    K.Runs Eq T (dropListings name s) (dropListings name s') := .ok rfl (h.relist _ _)

/-- The same width is resolved, and remembered. -/
theorem resolveWidth {declared declared' probed probed' : Call τ (Option Nat)}
    (h : K.Linked T s s') (hd : Step.Leaves declared) (hd' : Step.Leaves declared')
    (hp : Step.Leaves probed) (hp' : Step.Leaves probed')
    (hdeclared : (declared s.server).1 = (declared' s'.server).1)
    (hprobed : (probed s.server).1 = (probed' s'.server).1) :
    K.Runs Eq T (resolveWidth name declared probed s)
      (resolveWidth name declared' probed' s') := by
  obtain ⟨d, hrun, hremembers, hwidths⟩ := resolveWidth_apply h.remembers.1 hd hp rfl
  obtain ⟨d', hrun', hremembers', hwidths'⟩ := resolveWidth_apply (r := _) h.remembers.2 hd' hp' <| by
    rw [← h.named.widths name (beq_self_eq_true name), ← toAction_fst hdeclared,
      ← toAction_fst hprobed]
  rw [hrun, hrun']
  exact runs (h.learn ⟨hremembers, hremembers'⟩ hwidths hwidths') rfl

/-- Pages that are cut from what is fetched are the same. -/
theorem materialized {key : String} {request : PageRequest}
    {fetch fetch' : Action (Session τ) (List Item)} (h : K.Linked T s s') (hsize : 0 < request.size)
    (hleaves : Step.Leaves fetch) (hleaves' : Step.Leaves fetch')
    (hout : (fetch s).1 = (fetch' s').1) (hheld : s.heldOr key (fetch s).1 = (fetch s).1)
    (hheld' : s'.heldOr key (fetch' s').1 = (fetch' s').1) :
    K.Runs Eq T (materialized key request fetch s) (materialized key request fetch' s') := by
  have hcut : s.cutFrom key request (fetch s).1 = s'.cutFrom key request (fetch' s').1 := by
    rw [cutFrom, cutFrom, hheld, hheld', hout]
  have hfetch : fetch s = ((fetch s).1, s) := Prod.ext rfl (hleaves s)
  have hfetch' : fetch' s' = ((fetch' s').1, s') := Prod.ext rfl (hleaves' s')
  rcases materialized_of_cutFrom hsize hfetch with ⟨e, hsource, hrun⟩ |
      ⟨found, listings, hsource, -, hrun⟩ <;>
    rcases materialized_of_cutFrom hsize hfetch' with ⟨e', hsource', hrun'⟩ |
      ⟨found', listings', hsource', -, hrun'⟩ <;>
    rw [hcut, hsource'] at hsource <;> cases hsource <;> rw [hrun, hrun']
  · exact .error rfl h.any
  · exact runs (h.relist listings listings') rfl

end Linked

end Comparison

end Session

/-! ## Operations that keep to one collection -/

namespace Step

variable {ε σ α β : Type} {J : σ → Prop} {R : σ → σ → Prop} {watched : Bool}

/-- A step about one collection, in runs that have `R` in common: if the collection is watched
the step goes alike, and else it does not show. -/
structure Isolated (J : σ → Prop) (R : σ → σ → Prop) (watched : Bool)
    (x : ExceptT ε (StateM σ) α) : Prop where
  alike : watched = true → ∀ {s s'}, J s → J s' → R s s' → Alike R (x s) (x s')
  unseen : watched = false → ∀ {s s'}, J s → R s s' → R (x s).2 s'

theorem isolated_pure (a : α) : Isolated J R watched (pure a : ExceptT ε (StateM σ) α) :=
  ⟨fun _ _ _ _ _ h => ⟨rfl, h⟩, fun _ _ _ _ h => h⟩

theorem Isolated.bind {x : ExceptT ε (StateM σ) α} {f : α → ExceptT ε (StateM σ) β}
    (hx : Isolated J R watched x) (hkeeps : Keeps J x) (hf : ∀ a, Isolated J R watched (f a)) :
    Isolated J R watched (x >>= f) where
  alike hw s s' hs hs' h := (hx.alike hw hs hs' h).bind fun a s₁ s₁' hrun hrun' h₁ => by
    have hs₁ := hkeeps s hs
    have hs₁' := hkeeps s' hs'
    rw [hrun] at hs₁
    rw [hrun'] at hs₁'
    exact (hf a).alike hw hs₁ hs₁' h₁
  unseen hw s s' hs h := by
    have hs₁ := hkeeps s hs
    have h₁ := hx.unseen hw hs h
    rw [bind_apply]
    rcases hrun : x s with ⟨e | a, s₁⟩ <;> rw [hrun] at hs₁ h₁
    · exact h₁
    · exact (hf a).unseen hw hs₁ h₁

theorem Isolated.then_pure {x : ExceptT ε (StateM σ) α} (hx : Isolated J R watched x) (f : α → β) :
    Isolated J R watched (x >>= fun a => pure (f a)) where
  alike hw _ _ hs hs' h := (hx.alike hw hs hs' h).then_pure f
  unseen hw s s' hs h := by
    rw [snd_then_pure]
    exact hx.unseen hw hs h

/-- What is the same in both runs may be looked at. -/
theorem isolated_get {f : σ → ExceptT ε (StateM σ) α} (hf : ∀ s, Isolated J R watched (f s))
    (hsame : ∀ {s s'}, R s s' → f s = f s') : Isolated J R watched (get >>= f) where
  alike hw s s' hs hs' h := by
    rw [bind_of_ok (get_apply s), bind_of_ok (get_apply s'), hsame h]
    exact (hf s').alike hw hs hs' h
  unseen hw s s' hs h := by
    rw [bind_of_ok (get_apply s)]
    exact (hf s).unseen hw hs h

end Step

namespace Session

variable {τ View α : Type} {look : τ → String → View} {p : String → Bool} {name : String}

/-- **An operation whose steps go together keeps to its collection.** -/
theorem isolated_of_runs {J : Session τ → Prop} {x : Action (Session τ) α}
    (hx : ∀ K : Comparison look name, J K.left → J K.right →
      K.Linked (fun _ _ => True) K.left K.right →
        K.Runs Eq (fun _ _ => True) (x K.left) (x K.right)) :
    Step.Isolated J (Concordant look p) (p name) x where
  alike hp s s' hs hs' h := by
    have hrun := hx ⟨s, s', p, hp⟩ hs hs' ⟨h.mono (fun n hn => eq_of_beq hn ▸ hp) fun _ hn => hn,
      .refl s, .refl s', trivial, h.remembers, h.discreet⟩
    have hlinked := hrun.states
    refine ⟨?_, ⟨⟨fun n hn => ?_, fun n hn => ?_, hlinked.named.requests, hlinked.named.connected,
      hlinked.named.context⟩, hlinked.remembers, hlinked.discreet⟩⟩
    · exact hrun.outcome
    -- what the operation is not about is as it was in either run
    · by_cases heq : n = name
      · exact hlinked.named.server n (beq_iff_eq.2 heq)
      · rw [← hlinked.left.server n (bne_iff_ne.2 heq), h.server n hn,
          hlinked.right.server n (bne_iff_ne.2 heq)]
    · by_cases heq : n = name
      · exact hlinked.named.widths n (beq_iff_eq.2 heq)
      · rw [← hlinked.left.widths n (bne_iff_ne.2 heq), h.widths n hn,
          hlinked.right.widths n (bne_iff_ne.2 heq)]
  unseen hp s s' hs h := by
    -- the operation is compared with itself, and everything is watched
    have hrun := hx ⟨s, s, fun _ => true, rfl⟩ hs hs ⟨.refl s, .refl s, .refl s, trivial,
      ⟨h.remembers.1, h.remembers.1⟩, s.context.discreet_all⟩
    have hne : ∀ n, p n = true → (n != name) = true := by
      intro n hn
      rw [bne_iff_ne]
      rintro rfl
      rw [hp] at hn
      cases hn
    have hsame : Agree look p p s (x s).2 :=
      hrun.states.left.mono hne fun n hn => by rw [hne n hn]; rfl
    exact ⟨hsame.symm.trans h.toAgree, ⟨hrun.states.remembers.1, h.remembers.2⟩,
      hsame.context ▸ h.discreet⟩

end Session

/-! ## Calls and runs -/

/-- Nothing is asked of the states. -/
theorem Adapter.keeps_true {σ : Type} (A : Adapter σ) :
    A.Keeps (fun _ => True) fun _ => True := by
  constructor <;> intros <;> exact fun _ _ => trivial

namespace AdapterCall

/-- The collection that a call is about. -/
def collection? : AdapterCall → Option String
  | createCollection name _ _ | describe name | addItems name _ | getItems name _
  | listItems name _ _ | walk name _ _ | updateItems name _ | deleteItems name _ _
  | dropCollection name | countItems name | search name _ | embeddingModel name
  | metadata name => some name
  | connect | disconnect | isConnected | listCollections | capabilities | profileName => none

/-- Whether a call is about no collection but those in `p`. -/
def keepsTo (p : String → Bool) (call : AdapterCall) : Bool := call.collection?.all p

/-- What the calls about a collection answer in a run. -/
def answersTo {σ : Type} (perform : AdapterCall → Action σ AdapterAnswer) (name : String) :
    List AdapterCall → σ → List (Result AdapterAnswer)
  | [], _ => []
  | call :: calls, s =>
    let rest := answersTo perform name calls (perform call s).2
    if call.collection? = some name then (perform call s).1 :: rest else rest

/-- A part of a state answers as the whole does. -/
theorem answersTo_map {σ σ' : Type} {mk : σ → σ'} {perform : AdapterCall → Action σ AdapterAnswer}
    {perform' : AdapterCall → Action σ' AdapterAnswer}
    (h : ∀ call s, perform' call (mk s) = (perform call s).map id mk) (name : String)
    (calls : List AdapterCall) (s : σ) :
    answersTo perform' name calls (mk s) = answersTo perform name calls s := by
  induction calls generalizing s with
  | nil => rfl
  | cons call calls ih =>
    rw [answersTo, answersTo, h]
    exact if_congr Iff.rfl (congrArg _ (ih _)) (ih _)

end AdapterCall

namespace Adapter

variable {σ : Type} {A : Adapter σ} {J : σ → Prop} {R : σ → σ → Prop} {p : String → Bool}
variable {name : String} {call : AdapterCall} {s s' : σ}

/-- Operations on one collection keep to it, and what is done to the connection is done alike. -/
structure Isolates (A : Adapter σ) (J : σ → Prop) (R : σ → σ → Prop) (p : String → Bool) :
    Prop where
  keeps : A.Keeps J fun _ => True
  context : ∀ {s s'}, R s s' → A.context s = A.context s'
  connect : ∀ {s s'}, R s s' → R (A.connect s).2 (A.connect s').2
  disconnect : ∀ {s s'}, R s s' → R (A.disconnect s).2 (A.disconnect s').2
  listCollections : Step.Leaves A.listCollections
  createCollection : ∀ name width metric,
    Step.Isolated J R (p name) (A.createCollection name width metric)
  describe : ∀ name, Step.Isolated J R (p name) (A.describe name)
  addItems : ∀ name items, Step.Isolated J R (p name) (A.addItems name items)
  getItems : ∀ name ids, Step.Isolated J R (p name) (A.getItems name ids)
  listItems : ∀ name request filter, Step.Isolated J R (p name) (A.listItems name request filter)
  updateItems : ∀ name updates, Step.Isolated J R (p name) (A.updateItems name updates)
  deleteItems : ∀ name ids filter, Step.Isolated J R (p name) (A.deleteItems name ids filter)
  dropCollection : ∀ name, Step.Isolated J R (p name) (A.dropCollection name)
  countItems : ∀ name, Step.Isolated J R (p name) (A.countItems name)
  search : ∀ name query, Step.Isolated J R (p name) (A.search name query)
  metadata : ∀ name, Step.Isolated J R (p name) (A.metadata name)

namespace Isolates

theorem pagesFrom (h : A.Isolates J R p) (name : String) (filter : Option Filter) (fuel : Nat)
    (request : PageRequest) :
    Step.Isolated J R (p name) (A.pagesFrom name filter fuel request) := by
  induction fuel generalizing request with
  | zero => exact Step.isolated_pure []
  | succ fuel ih =>
    refine (h.listItems name request filter).bind (h.keeps.listItems name request filter)
      fun page => ?_
    split
    · exact Step.isolated_pure [page]
    · exact (ih _).then_pure _

theorem embeddingModel (h : A.Isolates J R p) (name : String) :
    Step.Isolated J R (p name) (A.embeddingModel name) := by
  refine (h.metadata name).bind (h.keeps.metadata name) fun metadata =>
    Step.isolated_get (fun s => ?_) fun hR => by simp only [h.context hR]
  split
  · exact Step.isolated_pure _
  · exact (h.listItems name _ none).bind (h.keeps.listItems name _ none) fun sample =>
      Step.isolated_get (fun _ => Step.isolated_pure _) fun hR => by simp only [h.context hR]

/-- **A call about a collection keeps to it.** -/
theorem perform (h : A.Isolates J R p) (hcall : call.collection? = some name) :
    Step.Isolated J R (p name) (A.perform call) := by
  cases call with
  | connect | disconnect | isConnected | listCollections | capabilities | profileName => cases hcall
  | createCollection _ width metric => cases hcall; exact (h.createCollection name _ _).then_pure _
  | describe => cases hcall; exact (h.describe name).then_pure _
  | addItems => cases hcall; exact (h.addItems name _).then_pure _
  | getItems => cases hcall; exact (h.getItems name _).then_pure _
  | listItems => cases hcall; exact (h.listItems name _ _).then_pure _
  | walk => cases hcall; exact (h.pagesFrom name _ _ _).then_pure _
  | updateItems => cases hcall; exact (h.updateItems name _).then_pure _
  | deleteItems => cases hcall; exact (h.deleteItems name _ _).then_pure _
  | dropCollection => cases hcall; exact (h.dropCollection name).then_pure _
  | countItems => cases hcall; exact (h.countItems name).then_pure _
  | search => cases hcall; exact (h.search name _).then_pure _
  | embeddingModel => cases hcall; exact (h.embeddingModel name).then_pure _
  | metadata => cases hcall; exact (h.metadata name).then_pure _

/-- A call about no collection is made alike. -/
theorem perform_shared (h : A.Isolates J R p) (hcall : call.collection? = none) (hR : R s s') :
    R (A.perform call s).2 (A.perform call s').2 := by
  have hleft : ∀ {α : Type} {x : Action σ α} (f : α → AdapterAnswer), R (x s).2 (x s').2 →
      R ((x >>= fun a => pure (f a)) s).2 ((x >>= fun a => pure (f a)) s').2 := by
    intro α x f hx
    rw [Step.snd_then_pure, Step.snd_then_pure]
    exact hx
  cases call with
  | connect => exact hleft _ (h.connect hR)
  | disconnect => exact hleft _ (h.disconnect hR)
  | listCollections =>
    refine hleft _ ?_
    rw [h.listCollections, h.listCollections]
    exact hR
  | isConnected => exact hR
  | capabilities => exact hR
  | profileName => exact hR
  | _ => cases hcall

/-- **Calls about what is not watched can be left out.** -/
theorem answersTo_filter (h : A.Isolates J R p) (hp : p name = true) (calls : List AdapterCall)
    (hs : J s) (hs' : J s') (hR : R s s') :
    AdapterCall.answersTo A.perform name calls s =
      AdapterCall.answersTo A.perform name (calls.filter (·.keepsTo p)) s' := by
  induction calls generalizing s s' with
  | nil => rfl
  | cons call calls ih =>
    have hnext : ∀ {s}, J s → J (A.perform call s).2 :=
      h.keeps.perform (call.admissible_of_forall fun _ => trivial) _
    cases hcall : call.collection? with
    | none =>
      have hkept : call.keepsTo p = true := by rw [AdapterCall.keepsTo, hcall]; rfl
      rw [List.filter_cons_of_pos hkept, AdapterCall.answersTo, AdapterCall.answersTo, hcall]
      simp only [reduceCtorEq, if_false]
      exact ih (hnext hs) (hnext hs') (h.perform_shared hcall hR)
    | some n =>
      cases hn : p n with
      | true =>
        have hkept : call.keepsTo p = true := by rw [AdapterCall.keepsTo, hcall]; exact hn
        obtain ⟨hanswer, hafter⟩ := (h.perform hcall).alike hn hs hs' hR
        rw [List.filter_cons_of_pos hkept, AdapterCall.answersTo, AdapterCall.answersTo, hanswer,
          ih (hnext hs) (hnext hs') hafter]
      | false =>
        have hleft : ¬ call.keepsTo p = true := by
          rw [AdapterCall.keepsTo, hcall]
          exact (Bool.eq_false_iff.1 hn ·)
        have hne : ¬ call.collection? = some name := by
          rw [hcall]
          rintro ⟨⟩
          rw [hp] at hn
          cases hn
        rw [List.filter_cons_of_neg hleft, AdapterCall.answersTo, if_neg hne]
        exact ih (hnext hs) hs' ((h.perform hcall).unseen hn hs hR)

/-- **Runs that differ in calls about what is not watched answer the same** to calls about what
is. -/
theorem answersTo_eq (h : A.Isolates J R p) (hp : p name = true) {calls calls' : List AdapterCall}
    (hcalls : calls.filter (·.keepsTo p) = calls'.filter (·.keepsTo p)) (hs : J s) (hR : R s s) :
    AdapterCall.answersTo A.perform name calls s =
      AdapterCall.answersTo A.perform name calls' s := by
  rw [h.answersTo_filter hp calls hs hs hR, hcalls, h.answersTo_filter hp calls' hs hs hR]

end Isolates

end Adapter

end VectorBridge
