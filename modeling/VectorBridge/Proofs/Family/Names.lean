import VectorBridge.Proofs.Family.Freshness
import VectorBridge.Proofs.Family.Widths
/-!
# Names of one collection

A server may give two names to one collection, while a session remembers widths and
holds listings under the names that it is called with. So two runs that differ in such
names meet the same server with other things remembered. What is remembered decides two
things only: whether vectors are refused for their width, and what a later page is cut
from. As long as these two agree, the runs go together call by call: both succeed with
the same answers or both fail for the same kind of reason, and what they do to the
server is the same.
-/

namespace VectorBridge

/-! ## Providers that cannot tell names apart -/

section Provider

variable {key : String → String} {n n' : String} {c : Context}
variable {log log' : List EmbeddingRequest}

/-- A request under the name that the server gives its collection. -/
def EmbeddingRequest.under (key : String → String) (r : EmbeddingRequest) : EmbeddingRequest :=
  { r with collection := key r.collection }

/-- The same requests, under names of the same collections. -/
def EmbeddingRequest.SameLog (key : String → String) (log log' : List EmbeddingRequest) : Prop :=
  log.map (under key) = log'.map (under key)

/-- No hint and no answer of the provider tells two names of one collection apart. -/
structure Context.Blind (key : String → String) (c : Context) : Prop where
  hints : ∀ {n n'}, key n = key n' → Keyed.get? n c.modelHints = Keyed.get? n' c.modelHints
  answers : ∀ {p}, c.embedder = some p → ∀ {log log' r r'},
    EmbeddingRequest.SameLog key log log' → r.under key = r'.under key →
      p.answer log r = p.answer log' r'

/-- Without hints and without a provider there is nothing to tell. -/
theorem Context.blind_empty : Context.empty.Blind key := ⟨fun _ => rfl, nofun⟩

open EmbeddingRequest (SameLog)

theorem Context.Blind.modelHint (h : c.Blind key) (hn : key n = key n')
    (metadata sample : Option Metadata) :
    c.modelHint n metadata sample = c.modelHint n' metadata sample := by
  rw [Context.modelHint, Context.modelHint, h.hints hn]

/-- Texts are given the same vectors under either name. -/
theorem Context.Blind.embed (h : c.Blind key) (hn : key n = key n') (texts : List String)
    (metadata : Option Metadata) (hlog : SameLog key log log') :
    Step.Alike (SameLog key) (c.embed n texts metadata log) (c.embed n' texts metadata log') := by
  unfold Context.embed
  cases hp : c.embedder with
  | none => exact ⟨rfl, hlog⟩
  | some p =>
    rw [h.modelHint hn]
    have hrequest : EmbeddingRequest.under key ⟨n, texts, c.modelHint n' metadata none⟩ =
        EmbeddingRequest.under key ⟨n', texts, c.modelHint n' metadata none⟩ := by
      simp only [EmbeddingRequest.under, hn]
    refine ⟨?_, ?_⟩
    · simp only [h.answers hp hlog hrequest]
    · simp only [SameLog, List.map_cons, hrequest]
      exact congrArg _ hlog

theorem Context.Blind.embedMissing (h : c.Blind key) (hn : key n = key n')
    (metadata : Option Metadata) (items : List Item) (hlog : SameLog key log log') :
    Step.Alike (SameLog key) (Batch.embedMissing c n metadata items log)
      (Batch.embedMissing c n' metadata items log') := by
  unfold Batch.embedMissing
  split
  · exact ⟨rfl, hlog⟩
  · exact (h.embed hn _ metadata hlog).then_pure (Batch.fill items)

theorem Context.Blind.inputVectors (h : c.Blind key) (hn : key n = key n')
    (metadata : Option Metadata) (input : QueryInput) (hlog : SameLog key log log') :
    Step.Alike (SameLog key) (Batch.inputVectors c n metadata input log)
      (Batch.inputVectors c n' metadata input log') := by
  cases input with
  | vectors vs => exact ⟨rfl, hlog⟩
  | texts texts => exact h.embed hn texts metadata hlog

end Provider

/-! ## Sessions that meet one server -/

namespace Session

open EmbeddingRequest (SameLog)

variable {τ α β : Type} {key : String → String} {s s' : Session τ}

/-- Two sessions in front of one server, with the same settings. What they remember and
hold may differ. -/
structure Twins (key : String → String) (s s' : Session τ) : Prop where
  server : s.server = s'.server
  connected : s.connected = s'.connected
  context : s.context = s'.context
  blind : s.context.Blind key
  requests : SameLog key s.requests s'.requests

/-- Two steps of such sessions go together: they succeed with related answers, or fail
for one kind of reason. -/
def Matched (key : String → String) (Q : α → β → Prop) (R : Session τ → Session τ → Prop) :
    Result α × Session τ → Result β × Session τ → Prop :=
  Step.Paired Q R (fun e e' => e.kind = e'.kind) (Twins key)

namespace Twins

variable {Q : α → α → Prop} {R : Session τ → Session τ → Prop} {P : β → β → Prop}

/-- What is remembered and held does not matter. -/
theorem of_same {s₁ s₁' : Session τ} (hs : Twins key s s') (hserver : s₁.server = s₁'.server)
    (h : s₁.connected = s.connected ∧ s₁.context = s.context ∧ s₁.requests = s.requests)
    (h' : s₁'.connected = s'.connected ∧ s₁'.context = s'.context ∧
      s₁'.requests = s'.requests) : Twins key s₁ s₁' where
  server := hserver
  connected := by rw [h.1, h'.1, hs.connected]
  context := by rw [h.2.1, h'.2.1, hs.context]
  blind := h.2.1.symm ▸ hs.blind
  requests := by rw [h.2.2, h'.2.2]; exact hs.requests

theorem ensureConnected_bind {f g : Unit → Action (Session τ) α} (hs : Twins key s s')
    (hf : s.connected = true → s'.connected = true → Matched key Q R (f () s) (g () s')) :
    Matched key Q R ((ensureConnected >>= f) s) ((ensureConnected >>= g) s') := by
  by_cases hconn : s.connected = true
  · have hconn' : s'.connected = true := hs.connected ▸ hconn
    rw [Session.ensureConnected_bind hconn, Session.ensureConnected_bind hconn']
    exact hf hconn hconn'
  · have hconn' : ¬ s'.connected = true := hs.connected ▸ hconn
    rw [ensureConnected_bind_of_not hconn, ensureConnected_bind_of_not hconn']
    exact .error rfl hs

/-- A check that does not look at the session comes out the same. -/
theorem check_bind {r : Result α} {f g : α → Action (Session τ) β} (hs : Twins key s s')
    (hf : ∀ a, r = .ok a → Matched key P R (f a s) (g a s')) :
    Matched key P R ((Action.ofResult r >>= f) s) ((Action.ofResult r >>= g) s') := by
  cases r with
  | error e => exact .error rfl hs
  | ok a => exact hf a rfl

/-- What is done to the server alone does the same to both. -/
theorem onServer (hs : Twins key s s') (a : Action τ α) :
    Matched key Eq (Twins key) (onServer a s) (onServer a s') := by
  have hafter : Twins key { s with server := (a s.server).2 }
      { s' with server := (a s.server).2 } := hs.of_same rfl ⟨rfl, rfl, rfl⟩ ⟨rfl, rfl, rfl⟩
  rw [onServer_apply, onServer_apply, ← hs.server]
  cases (a s.server).1 with
  | error e => exact .error rfl hafter
  | ok x => exact .ok rfl hafter

theorem call (hs : Twins key s s') (c : Call τ α) :
    Matched key Eq (Twins key) (call c s) (call c s') := hs.onServer c.toAction

/-- Questions that go together leave both sessions as they are. -/
theorem ask_bind {c c' : Call τ α} {f g : α → Action (Session τ) β} (hs : Twins key s s')
    (hc : Step.Leaves c) (hc' : Step.Leaves c')
    (hpair : Step.Paired Q Eq Eq Eq (c s.server) (c' s.server))
    (hf : ∀ a a', c s.server = (.ok a, s.server) → c' s'.server = (.ok a', s'.server) →
      Q a a' → Matched key P R (f a s) (g a' s')) :
    Matched key P R ((Session.call c >>= f) s) ((Session.call c' >>= g) s') := by
  have hrun : c s.server = ((c s.server).1, s.server) := Prod.ext rfl (hc s.server)
  have hrun' : c' s.server = ((c' s.server).1, s.server) := Prod.ext rfl (hc' s.server)
  rw [hrun, hrun'] at hpair
  rcases hout : (c s.server).1 with e | a <;> rcases hout' : (c' s.server).1 with e' | a' <;>
    rw [hout, hout'] at hpair <;> cases hpair
  case error hreasons _ =>
    subst hreasons
    rw [hout] at hrun
    rw [hout', hs.server] at hrun'
    rw [Step.bind_of_error (call_of_error hrun), Step.bind_of_error (call_of_error hrun')]
    exact .error rfl hs
  case ok hanswers _ =>
    rw [hout] at hrun
    rw [hout', hs.server] at hrun'
    rw [Step.bind_of_ok (call_of_ok hrun), Step.bind_of_ok (call_of_ok hrun')]
    exact hf a a' hrun hrun' hanswers

/-- A question that does not depend on the name is answered the same. -/
theorem same_bind {c c' : Call τ α} {f g : α → Action (Session τ) β} (hs : Twins key s s')
    (hc : Step.Leaves c) (hsame : c = c')
    (hf : ∀ a, c s.server = (.ok a, s.server) → Matched key P R (f a s) (g a s')) :
    Matched key P R ((Session.call c >>= f) s) ((Session.call c' >>= g) s') := by
  subst hsame
  refine hs.ask_bind (Q := Eq) hc hc ?_ fun a a' hrun _ hanswers => hanswers ▸ hf a hrun
  rcases c s.server with ⟨e | a, t⟩
  · exact .error rfl rfl
  · exact .ok rfl rfl

/-- What the provider is asked goes together. -/
theorem embedding {f g : Context → Action (List EmbeddingRequest) α} (hs : Twins key s s')
    (h : ∀ log log', SameLog key log log' →
      Step.Alike (SameLog key) (f s.context log) (g s.context log')) :
    Matched key Eq (Twins key) (embedding f s) (embedding g s') := by
  have hpair := h s.requests s'.requests hs.requests
  rw [show g s.context = g s'.context by rw [hs.context]] at hpair
  obtain ⟨houtcome, hlog⟩ := hpair
  have hafter : Twins key { s with requests := (f s.context s.requests).2 }
      { s' with requests := (g s'.context s'.requests).2 } :=
    ⟨hs.server, hs.connected, hs.context, hs.blind, hlog⟩
  rw [embedding_apply, embedding_apply, ← houtcome]
  cases (f s.context s.requests).1 with
  | error e => exact .error rfl hafter
  | ok a => exact .ok rfl hafter

end Twins

/-- A listing fetched whole: what is held of it, else what is fetched. -/
def heldOr (s : Session τ) (k : String) (fetched : Result (List Item)) : Result (List Item) :=
  match Keyed.get? k s.listings with
  | some found => .ok found
  | none => fetched

/-- What a page is cut from: for the first page the listing is fetched. -/
def cutFrom (s : Session τ) (k : String) (request : PageRequest) (fetched : Result (List Item)) :
    Result (List Item) :=
  if request.token.isSome then s.heldOr k fetched else fetched

/-- A page is cut from what there is to cut it from, and that is held afterwards. -/
theorem materialized_of_cutFrom {k : String} {request : PageRequest}
    {fetch : Action (Session τ) (List Item)} {fetched : Result (List Item)}
    (hsize : 0 < request.size) (hfetch : fetch s = (fetched, s)) :
    (∃ e, s.cutFrom k request fetched = .error e ∧
        materialized k request fetch s = (.error e, s)) ∨
      ∃ found listings, s.cutFrom k request fetched = .ok found ∧
        Keyed.get? k listings = some found ∧ materialized k request fetch s =
          (request.offset.map fun offset => Page.slice found offset request.size,
            { s with listings }) := by
  have hnew : request.token = none ∨ Keyed.get? k s.listings = none →
      s.cutFrom k request fetched = fetched := by
    rintro (htoken | hnone)
    · rw [cutFrom, htoken]
      rfl
    · rw [cutFrom, heldOr, hnone]
      exact ite_self _
  by_cases h : request.token = none ∨ Keyed.get? k s.listings = none
  · rw [hnew h]
    cases fetched with
    | error e => exact .inl ⟨e, rfl, materialized_failed h hfetch⟩
    | ok found =>
      exact .inr ⟨found, _, rfl, Keyed.get?_insert_self _ _ _, materialized_fetched h hsize hfetch⟩
  · rw [not_or] at h
    obtain ⟨found, hheld⟩ := Option.ne_none_iff_exists'.1 h.2
    have htoken : request.token.isSome = true := Option.isSome_iff_ne_none.2 h.1
    refine .inr ⟨found, s.listings, ?_, hheld, materialized_held htoken hsize hheld⟩
    rw [cutFrom, if_pos htoken, heldOr, hheld]

/-- Pages that are cut from the same listing are the same, and the same is held then. -/
theorem Twins.materialized {k k' : String} {request : PageRequest}
    {fetch fetch' : Action (Session τ) (List Item)} {fetched : Result (List Item)}
    (hs : Twins key s s') (hsize : 0 < request.size) (hfetch : fetch s = (fetched, s))
    (hfetch' : fetch' s' = (fetched, s'))
    (hsame : request.token.isSome = true → s.heldOr k fetched = s'.heldOr k' fetched) :
    Matched key Eq
      (fun s₁ s₁' => Twins key s₁ s₁' ∧ ∃ found,
        Keyed.get? k s₁.listings = some found ∧ Keyed.get? k' s₁'.listings = some found)
      (materialized k request fetch s) (materialized k' request fetch' s') := by
  have hcut : s.cutFrom k request fetched = s'.cutFrom k' request fetched := by
    rw [cutFrom, cutFrom]
    exact if_ctx_congr Iff.rfl hsame fun _ => rfl
  rcases materialized_of_cutFrom hsize hfetch with ⟨e, hsource, hrun⟩ |
      ⟨found, listings, hsource, hheld, hrun⟩ <;>
    rcases materialized_of_cutFrom hsize hfetch' with ⟨e', hsource', hrun'⟩ |
      ⟨found', listings', hsource', hheld', hrun'⟩ <;>
    rw [hcut, hsource'] at hsource <;> cases hsource <;> rw [hrun, hrun']
  · exact .error rfl hs
  · have hafter : Twins key { s with listings } { s' with listings := listings' } :=
      hs.of_same hs.server ⟨rfl, rfl, rfl⟩ ⟨rfl, rfl, rfl⟩
    cases request.offset with
    | error e => exact .error rfl hafter
    | ok offset => exact .ok rfl ⟨hafter, _, hheld, hheld'⟩

end Session

/-! ## Families whose collections have more than one name -/

namespace Family

open Session

variable {τ Handle Condition Fragment : Type}

/-- Handles of which the server cannot tell which one it is asked with. -/
structure Indistinct (F : Family τ Handle Condition Fragment) (h h' : Handle) : Prop where
  metadataOf : F.metadataOf h = F.metadataOf h'
  declaredWidth : F.declaredWidth h = F.declaredWidth h'
  probedWidth : F.probedWidth h = F.probedWidth h'
  write : F.write h = F.write h'
  fetch : F.fetch h = F.fetch h'
  sample : F.sample h = F.sample h'
  fetchAll : F.fetchAll h = F.fetchAll h'
  readPage : F.readPage h = F.readPage h'
  eraseIds : F.eraseIds h = F.eraseIds h'
  eraseWhere : F.eraseWhere h = F.eraseWhere h'
  size : F.size h = F.size h'
  nearest : F.nearest h = F.nearest h'

/-- The server has a property, and what is learned of widths is remembered. -/
structure Ready (I : τ → Prop) (s : Session τ) : Prop where
  inv : I s.server
  remembers : s.dimensions.Remembers

/-- What a family owes when its server knows a collection by the key of a name: under
names of one key it is asked the same, widths can be had of an opened collection, and
no write is refused for a width. -/
structure SharesNames (F : Family τ Handle Condition Fragment) (key : String → String)
    (I : τ → Prop) : Prop where
  reads : F.ReadsOnly
  guards : F.Guards I fun _ => True
  create : ∀ {n n'}, key n = key n' → ∀ c w metric, F.create c n w metric = F.create c n' w metric
  drop : ∀ {n n'}, key n = key n' → F.drop n = F.drop n'
  count : ∀ {n n'}, key n = key n' → F.count n = F.count n'
  attach : ∀ {n n' t}, key n = key n' →
    Step.Paired F.Indistinct Eq Eq Eq (F.attach n t) (F.attach n' t)
  inspect : ∀ {n n' t}, key n = key n' →
    Step.Paired (fun p p' => F.Indistinct p.1 p'.1 ∧ p.2 = p'.2) Eq Eq Eq (F.inspect n t)
      (F.inspect n' t)
  attach_of_inspect : ∀ {n t h scoring}, F.inspect n t = (.ok (h, scoring), t) →
    F.attach n t = (.ok h, t)
  named : ∀ {n t h}, F.attach n t = (.ok h, t) → F.nameOf h = n
  widths : ∀ {n t h}, I t → F.attach n t = (.ok h, t) →
    ∃ w w', F.declaredWidth h t = (.ok w, t) ∧ F.probedWidth h t = (.ok w', t)
  write_kind : ∀ {h batch t e t'}, F.write h batch t = (.error e, t') →
    e.kind ≠ .dimensionMismatch

/-- Whether a call fails because a vector has another width than it should. -/
def refusedForWidth {α : Type} : Result α → Bool
  | .ok _ => false
  | .error e => e.kind = .dimensionMismatch

/-- The listing that a later page is cut from: what is held of it, else what is
fetched. -/
def shown (F : Family τ Handle Condition Fragment) (name : String) (filter : Option Filter)
    (s : Session τ) : Result (List Item) :=
  s.heldOr (listingKey name filter) ((do
    let compiled ← Action.ofResult (F.compiler.compile? filter)
    let h ← call (F.attach name)
    F.fetchListing h compiled : Action (Session τ) (List Item)) s).1

/-- Where the client has a part in a filter, later pages are cut from the same listing. -/
def SameListing (F : Family τ Handle Condition Fragment) (n n' : String) (filter : Option Filter)
    (s s' : Session τ) : Prop :=
  ∀ compiled, F.compiler.compile? filter = .ok compiled → compiled.isComplete = false →
    F.shown n filter s = F.shown n' filter s'

/-- Where the client has a part in a filter, the same listing is held. -/
def SameHeld (F : Family τ Handle Condition Fragment) (n n' : String) (filter : Option Filter)
    (s s' : Session τ) : Prop :=
  ∀ compiled, F.compiler.compile? filter = .ok compiled → compiled.isComplete = false →
    ∃ found, Keyed.get? (listingKey n filter) s.listings = some found ∧
      Keyed.get? (listingKey n' filter) s'.listings = some found

theorem SameHeld.sameListing {F : Family τ Handle Condition Fragment} {n n' : String}
    {filter : Option Filter} {s s' : Session τ} (h : F.SameHeld n n' filter s s') :
    F.SameListing n n' filter s s' := by
  intro compiled hc hpart
  obtain ⟨found, hheld, hheld'⟩ := h compiled hc hpart
  rw [shown, shown, heldOr, heldOr, hheld, hheld']

namespace SharesNames

variable {F : Family τ Handle Condition Fragment} {key : String → String} {I : τ → Prop}
variable {n n' : String} {s s' : Session τ} {α β : Type} {P : β → β → Prop}
variable {R : Session τ → Session τ → Prop}

/-! ### Opening a collection -/

theorem attach_bind {f g : Handle → Action (Session τ) β} (A : F.SharesNames key I)
    (hs : Twins key s s') (hn : key n = key n')
    (hf : ∀ h h', F.attach n s.server = (.ok h, s.server) →
      F.attach n' s'.server = (.ok h', s'.server) → F.Indistinct h h' →
        Matched key P R (f h s) (g h' s')) :
    Matched key P R ((call (F.attach n) >>= f) s) ((call (F.attach n') >>= g) s') :=
  hs.ask_bind (A.reads.attach n) (A.reads.attach n') (A.attach hn) hf

theorem inspect_bind {f g : Handle × Scoring → Action (Session τ) β} (A : F.SharesNames key I)
    (hs : Twins key s s') (hn : key n = key n')
    (hf : ∀ h h' scoring, F.inspect n s.server = (.ok (h, scoring), s.server) →
      F.inspect n' s'.server = (.ok (h', scoring), s'.server) → F.Indistinct h h' →
        Matched key P R (f (h, scoring) s) (g (h', scoring) s')) :
    Matched key P R ((call (F.inspect n) >>= f) s) ((call (F.inspect n') >>= g) s') := by
  refine hs.ask_bind (A.reads.inspect n) (A.reads.inspect n') (A.inspect hn) ?_
  rintro ⟨h, scoring⟩ ⟨h', scoring'⟩ hopen hopen' ⟨hh, rfl⟩
  exact hf h h' scoring hopen hopen' hh

/-- Widths are resolved, to the same when the same is remembered. -/
theorem resolve {h h' : Handle} (A : F.SharesNames key I) (hs : Twins key s s')
    (hr : Ready I s) (hr' : Ready I s') (hattach : F.attach n s.server = (.ok h, s.server))
    (hattach' : F.attach n' s'.server = (.ok h', s'.server)) (hh : F.Indistinct h h') :
    ∃ w w' dimensions dimensions',
      F.resolve h s = (.ok (.ofOption w), { s with dimensions }) ∧
      F.resolve h' s' = (.ok (.ofOption w'), { s' with dimensions := dimensions' }) ∧
      (s.dimensions.cachedWidth? n = s'.dimensions.cachedWidth? n' → w = w') := by
  obtain ⟨told, probed, hdeclared, hprobed⟩ := A.widths hr.inv hattach
  obtain ⟨dimensions, hrun⟩ :=
    resolveWidth_eq (F.nameOf h) hr.remembers hdeclared hprobed
  rw [hh.declaredWidth, hs.server] at hdeclared
  rw [hh.probedWidth, hs.server] at hprobed
  obtain ⟨dimensions', hrun'⟩ :=
    resolveWidth_eq (F.nameOf h') hr'.remembers hdeclared hprobed
  refine ⟨_, _, dimensions, dimensions', hrun, hrun', fun hsame => ?_⟩
  rw [A.named hattach, A.named hattach', hsame]

end SharesNames

end Family

end VectorBridge
