import Mathlib.Logic.Function.Basic
import VectorBridge.Proofs.Family.Again
/-!
# Widths in step with a server

A session remembers the widths of collections, and what it remembers is all that
additions and searches are checked against. `Tracks` says what a family owes so that
the widths stay in step with what its servers hold, for any notion `K` of being in
step: whatever an answer adds to what is remembered has to be so. Every call then
keeps up `Tracking K`, with creation left to the family, and a width that is needed
is known before anything is written. A write of a batch that does not fit is never
reached, so it makes no difference what it would do.
-/

namespace VectorBridge

/-- An item that has a vector of some width and nothing else. -/
def Item.ofWidth (id : String) (w : Nat) : Item := ⟨id, none, [], some (List.replicate w 0)⟩

namespace DimensionResolver

variable {r : DimensionResolver}

theorem Remembers.cachedWidth?_record (h : r.Remembers) (collection : String) (width : Nat) :
    (r.record collection width).cachedWidth? =
      Function.update r.cachedWidth? collection (some width) := by
  cases r with
  | cached ws =>
    funext name
    rw [Function.update_apply]
    exact (Keyed.get?_insert collection name width ws).trans (if_congr eq_comm rfl rfl)
  | fixed d | custom history decide => cases h

theorem Remembers.cachedWidth?_forget (h : r.Remembers) (collection : String) :
    (r.forget collection).cachedWidth? = Function.update r.cachedWidth? collection none := by
  cases r with
  | cached ws =>
    funext name
    rw [Function.update_apply]
    exact (Keyed.get?_erase collection name ws).trans (if_congr eq_comm rfl rfl)
  | fixed d | custom history decide => cases h

end DimensionResolver

namespace Batch

/-- Vectors of which one has another width are refused for such a one. -/
theorem checkVectors_of_misfit {w : Nat} {vectors : List Embedding} {v : Embedding}
    (hv : v ∈ vectors) (hmisfit : v.length ≠ w) :
    ∃ n, n ≠ w ∧ checkVectors (.known w) vectors = .error (.dimensionMismatch w n) := by
  induction vectors with
  | nil => cases hv
  | cons u rest ih =>
    simp only [checkVectors, Dimension.check]
    by_cases hu : w = u.length
    · rw [if_pos hu]
      refine ih ((List.mem_cons.1 hv).resolve_left ?_)
      rintro rfl
      exact hmisfit hu.symm
    · rw [if_neg hu]
      exact ⟨u.length, Ne.symm hu, rfl⟩

/-- The vectors that a query is made with. -/
def inputVectors (c : Context) (collection : String) (metadata : Option Metadata) :
    QueryInput → Action (List EmbeddingRequest) (List Embedding)
  | .vectors vs => pure vs
  | .texts texts => c.embed collection texts metadata

theorem queryVectors_eq (c : Context) (collection : String) (metadata : Option Metadata)
    (input : QueryInput) (d : Dimension) :
    queryVectors c collection metadata input d = (do
      let vectors ← inputVectors c collection metadata input
      match checkVectors d vectors with
      | .ok () => pure vectors
      | .error e => throw e) := by
  cases input <;> rfl

theorem queryVectors_of_misfit {c : Context} {collection : String} {metadata : Option Metadata}
    {input : QueryInput} {w : Nat} {log : List EmbeddingRequest} {vectors : List Embedding}
    {v : Embedding} (hinput : (inputVectors c collection metadata input log).1 = .ok vectors)
    (hv : v ∈ vectors) (hmisfit : v.length ≠ w) :
    ∃ n log', n ≠ w ∧ queryVectors c collection metadata input (.known w) log =
      (.error (.dimensionMismatch w n), log') := by
  obtain ⟨n, hn, hcheck⟩ := checkVectors_of_misfit hv hmisfit
  have hrun : inputVectors c collection metadata input log = (.ok vectors, _) :=
    Prod.ext hinput rfl
  refine ⟨n, (inputVectors c collection metadata input log).2, hn, ?_⟩
  rw [queryVectors_eq, Step.bind_of_ok hrun, hcheck]
  rfl

end Batch

namespace Session

variable {τ : Type}

/-- A session remembers widths, and they are in step with the server. -/
structure Tracking (K : (String → Option Nat) → τ → Prop) (s : Session τ) : Prop where
  remembers : s.dimensions.Remembers
  agrees : K s.dimensions.cachedWidth? s.server

namespace Tracking

variable {K : (String → Option Nat) → τ → Prop} {s : Session τ} {t : τ} {name : String}

/-- Of a session only its widths and its server matter. -/
theorem of_same {s' : Session τ} (h : Tracking K s) (hserver : s'.server = s.server)
    (hwidths : s'.dimensions = s.dimensions) : Tracking K s' := by
  refine ⟨hwidths ▸ h.remembers, ?_⟩
  rw [hwidths, hserver]
  exact h.agrees

theorem unlisted : Unlisted (Tracking K) := fun _ _ h => h.of_same rfl rfl

theorem record {width : Nat} (h : Tracking K s)
    (hK : K (Function.update s.dimensions.cachedWidth? name (some width)) t) :
    Tracking K { s with server := t, dimensions := s.dimensions.record name width } where
  remembers := h.remembers.record name width
  agrees := by
    rw [h.remembers.cachedWidth?_record]
    exact hK

theorem forget (h : Tracking K s) (hK : K (Function.update s.dimensions.cachedWidth? name none) t) :
    Tracking K { s with server := t, dimensions := s.dimensions.forget name } where
  remembers := h.remembers.forget name
  agrees := by
    rw [h.remembers.cachedWidth?_forget]
    exact hK

end Tracking

/-- What a call keeps in step with any widths it keeps in step with those remembered. -/
theorem keeps_call {α : Type} {K : (String → Option Nat) → τ → Prop} {c : Call τ α}
    (h : ∀ ws, Step.Keeps (K ws) c) : Step.Keeps (Tracking K) (call c) := fun s hs =>
  ⟨hs.remembers, by
    show K s.dimensions.cachedWidth? (c.toAction s.server).2
    rw [toAction_snd]
    exact h _ _ hs.agrees⟩

end Session

namespace Family

variable {τ Handle Condition Fragment : Type}

open Session

/-! ## Additions and searches up to their widths -/

/-- What an addition does before widths are looked at. -/
def submit (F : Family τ Handle Condition Fragment) (collection : String) (items : List Item) :
    Action (Session τ) (Handle × List Item) := do
  Action.ofResult (Batch.checkIds items)
  Action.ofResult (Filter.firstError (items.map F.checkItem))
  let h ← call (F.attach collection)
  let batch ← embedding fun c => Batch.embedMissing c collection (F.metadataOf h) items
  Action.ofResult (F.checkVectors batch)
  pure (h, batch)

/-- The width of a batch is remembered, where that is done. -/
def learn (F : Family τ Handle Condition Fragment) (collection : String) (width : Option Nat) :
    Action (Session τ) Unit :=
  match width with
  | some w => if F.learnsWidth then recordWidth collection w else pure ()
  | none => pure ()

/-- What an addition does before it writes: the widths of its batch are compared with
the one that is resolved. -/
def settle (F : Family τ Handle Condition Fragment) (collection : String) (h : Handle)
    (batch : List Item) : Action (Session τ) Unit := do
  let dimension ← F.resolve h
  let width ← Action.ofResult (Batch.checkDimensions dimension batch)
  F.learn collection width

/-- A search that has passed all checks but that of its widths, and the vectors it is
made with. -/
structure Inquiry (F : Family τ Handle Condition Fragment) (collection : String) (query : Query)
    (s : Session τ) (h : Handle) (vectors : List Embedding) : Prop where
  connected : s.connected = true
  counted : checkCount query.k = .ok ()
  compiled : ∃ compiled, F.compiler.compile? query.filter = .ok compiled
  opened : ∃ scoring, F.inspect collection s.server = (.ok (h, scoring), s.server)
  embedded : (Batch.inputVectors s.context collection (F.metadataOf h) query.input
    s.requests).1 = .ok vectors

variable {F : Family τ Handle Condition Fragment} {K : (String → Option Nat) → τ → Prop}
variable {name : String} {items batch : List Item} {s s' s₁ s₂ : Session τ} {h : Handle}

/-- **An addition submits a batch, settles its width and writes it.** -/
theorem addItems_eq (F : Family τ Handle Condition Fragment) (name : String) (items : List Item) :
    F.addItems name items = (do
      ensureConnected
      if items.isEmpty then pure ()
      else do
        let submitted ← F.submit name items
        F.settle name submitted.1 submitted.2
        onServer (F.write submitted.1 submitted.2)
        dropListings name) := by
  unfold addItems submit settle
  simp only [bind_assoc, pure_bind]
  refine bind_congr fun _ => if_congr Iff.rfl rfl (bind_congr fun _ => bind_congr fun _ =>
    bind_congr fun h => bind_congr fun batch => bind_congr fun _ => bind_congr fun dimension =>
      bind_congr fun width => ?_)
  cases width with
  | none => rfl
  | some w => simp only [learn]; split <;> rfl

theorem submit_eq_ok (R : F.ReadsOnly) (hsubmit : F.submit name items s = (.ok (h, batch), s')) :
    F.attach name s.server = (.ok h, s.server) ∧ batch.map Item.bare = items.map Item.bare ∧
      ∃ requests, s' = { s with requests := requests } := by
  rw [submit, Action.ofResult_bind_eq_ok_iff] at hsubmit
  obtain ⟨-, -, hsubmit⟩ := hsubmit
  obtain ⟨-, -, hsubmit⟩ := Action.ofResult_bind_eq_ok_iff.1 hsubmit
  obtain ⟨h', s₂, hcall, hsubmit⟩ := Step.bind_eq_ok_iff.1 hsubmit
  obtain ⟨t, hattach, rfl⟩ := call_eq_ok_iff.1 hcall
  obtain rfl : t = s.server := by rw [← R.attach name s.server, hattach]
  obtain ⟨batch', s₃, hembed, hsubmit⟩ := Step.bind_eq_ok_iff.1 hsubmit
  obtain ⟨hbatch, rfl⟩ := Prod.mk.inj ((embedding_apply _ _).symm.trans hembed)
  obtain ⟨-, -, hpure⟩ := Action.ofResult_bind_eq_ok_iff.1 hsubmit
  cases hpure
  exact ⟨hattach, Batch.map_embedMissing Item.bare (fun _ _ => rfl) (Prod.ext hbatch rfl), _, rfl⟩

theorem keeps_submit {J : Session τ → Prop} (R : F.ReadsOnly)
    (hembed : ∀ s requests, J s → J { s with requests := requests }) (name : String)
    (items : List Item) : Step.Keeps J (F.submit name items) :=
  Step.Keeps.bind (fun _ hs => hs) fun _ => Step.Keeps.bind (fun _ hs => hs) fun _ =>
    Step.Keeps.bind (keeps_ask (R.attach name)) fun _ =>
      Step.Keeps.bind (fun s hs => hembed s _ hs) fun _ => Step.Keeps.bind (fun _ hs => hs)
        fun _ _ hs => hs

/-- **A submitted batch that has a vector of another width than the one resolved is
refused.** -/
theorem addItems_of_misfit {w : Nat} {v : Embedding} (R : F.ReadsOnly) (hconn : s.connected = true)
    (hsubmit : F.submit name items s = (.ok (h, batch), s₁))
    (hresolve : F.resolve h s₁ = (.ok (.known w), s₂))
    (hv : v ∈ batch.filterMap (·.embedding)) (hmisfit : v.length ≠ w) :
    ∃ n, n ≠ w ∧ F.addItems name items s = (.error (.dimensionMismatch w n), s₂) := by
  obtain ⟨n, hn, hcheck⟩ := Batch.commonWidth_of_misfit hv hmisfit
  refine ⟨n, hn, ?_⟩
  have hitems : items.isEmpty = false := by
    cases items with
    | cons item rest => rfl
    | nil =>
      obtain ⟨-, hbare, -⟩ := submit_eq_ok R hsubmit
      rw [List.map_nil, List.map_eq_nil_iff] at hbare
      rw [hbare] at hv
      cases hv
  rw [addItems_eq, ensureConnected_bind hconn, hitems, if_neg Bool.false_ne_true,
    Step.bind_of_ok hsubmit]
  refine Step.bind_of_error ?_ _
  rw [settle, Step.bind_of_ok hresolve]
  exact Step.bind_of_error (by rw [Action.ofResult_apply]; exact congrArg (·, s₂) hcheck) _

/-- **A query that has a vector of another width than the one resolved is refused.** -/
theorem search_of_misfit {w : Nat} {v : Embedding} {query : Query} {vectors : List Embedding}
    (Q : F.Inquiry name query s h vectors) (hresolve : F.resolve h s = (.ok (.known w), s₁))
    (hv : v ∈ vectors) (hmisfit : v.length ≠ w) :
    ∃ n s₂, n ≠ w ∧ F.search name query s = (.error (.dimensionMismatch w n), s₂) := by
  obtain ⟨compiled, hcompiled⟩ := Q.compiled
  obtain ⟨scoring, hopen⟩ := Q.opened
  -- what resolves widths leaves the log of requests alone
  have hlog : s₁ = { s₁ with context := s.context, requests := s.requests } := by
    rw [show s₁ = (F.resolve h s).2 by rw [hresolve]]
    rfl
  obtain ⟨n, log, hn, hcheck⟩ := Batch.queryVectors_of_misfit Q.embedded hv hmisfit
  refine ⟨n, { s₁ with requests := log }, hn, ?_⟩
  rw [search, ensureConnected_bind Q.connected, Action.ofResult_bind_of_ok Q.counted,
    Action.ofResult_bind_of_ok hcompiled, Step.bind_of_ok (call_of_ok hopen)]
  refine (Step.bind_of_ok hresolve _).trans (Step.bind_of_error ?_ _)
  rw [embedding_apply, hlog, hcheck]

/-! ## Families that keep widths in step -/

/-- What a family owes so that remembered widths and its servers stay in step: what is
remembered of an answer is so, and a write whose vectors all have the remembered width
leaves things in step. -/
structure Tracks (F : Family τ Handle Condition Fragment)
    (K : (String → Option Nat) → τ → Prop) : Prop where
  reads : F.ReadsOnly
  named : ∀ {ws t name h}, K ws t → F.attach name t = (.ok h, t) → F.nameOf h = name
  attach_of_inspect : ∀ {t name h scoring}, F.inspect name t = (.ok (h, scoring), t) →
    F.attach name t = (.ok h, t)
  told : F.trustsDeclared = true → ∀ {ws t name h scoring w}, K ws t →
    F.inspect name t = (.ok (h, scoring), t) → scoring.declared = some w →
      K (Function.update ws name (some w)) t
  declares : ∀ {ws t name h}, K ws t → F.attach name t = (.ok h, t) → ws name = none →
    (∃ e, F.declaredWidth h t = (.error e, t)) ∨
      ∃ w, F.declaredWidth h t = (.ok (some w), t) ∧ K (Function.update ws name (some w)) t
  drop : ∀ {ws t name t'}, K ws t → F.drop name t = (.ok (), t') →
    K (Function.update ws name none) t'
  drop_error : ∀ {ws t name e t'}, K ws t → F.drop name t = (.error e, t') → K ws t'
  eraseIds : ∀ ws h ids, Step.Keeps (K ws) (F.eraseIds h ids)
  eraseWhere : ∀ ws h fragment, Step.Keeps (K ws) (F.eraseWhere h fragment)
  write : ∀ {ws t name h batch w}, K ws t → F.attach name t = (.ok h, t) → ws name = some w →
    (∀ v ∈ batch.filterMap (·.embedding), v.length = w) → K ws (F.write h batch t).2

/-- A width that is remembered is resolved. -/
theorem Tracks.resolve_of_remembered (T : F.Tracks K) {w : Nat} (hs : Tracking K s)
    (hattach : F.attach name s.server = (.ok h, s.server))
    (hw : s.dimensions.cachedWidth? name = some w) : F.resolve h s = (.ok (.known w), s) := by
  rw [resolve, T.named hs.agrees hattach]
  cases hdims : s.dimensions with
  | cached ws =>
    rw [hdims] at hw
    exact resolveWidth_of_cached hdims hw
  | fixed d | custom history decide =>
    rw [hdims] at hw
    cases hw

/-- **A width is known once a collection is opened**, or the server tells none. -/
theorem Tracks.resolve_cases (T : F.Tracks K) (hs : Tracking K s)
    (hattach : F.attach name s.server = (.ok h, s.server)) :
    (∃ e, F.declaredWidth h s.server = (.error e, s.server) ∧
        F.resolve h s = (.error e.toError, s)) ∨
      ∃ w s', F.resolve h s = (.ok (.known w), s') ∧ s'.server = s.server ∧ Tracking K s' ∧
        s'.dimensions.cachedWidth? name = some w := by
  cases hw : s.dimensions.cachedWidth? name with
  | some w => exact .inr ⟨w, s, T.resolve_of_remembered hs hattach hw, rfl, hs, hw⟩
  | none =>
    have hremembers := hs.remembers
    rw [resolve, T.named hs.agrees hattach]
    cases hdims : s.dimensions with
    | fixed d | custom history decide =>
      rw [hdims] at hremembers
      cases hremembers
    | cached ws =>
      have hget : Keyed.get? name ws = none := by
        rw [hdims] at hw
        exact hw
      rcases T.declares hs.agrees hattach hw with ⟨e, hdeclared⟩ | ⟨w, hdeclared, hK⟩
      · exact .inl ⟨e, hdeclared,
          resolveWidth_of_error hdims hget (Call.toAction_of_error hdeclared)⟩
      · refine .inr ⟨w, _, resolveWidth_of_declared hdims hget (Call.toAction_of_ok hdeclared),
          rfl, hs.record hK, ?_⟩
        show (s.dimensions.record name w).cachedWidth? name = some w
        rw [hs.remembers.cachedWidth?_record, Function.update_self]

theorem Tracks.keeps_resolve (T : F.Tracks K) (hs : Tracking K s)
    (hattach : F.attach name s.server = (.ok h, s.server)) : Tracking K (F.resolve h s).2 := by
  rcases T.resolve_cases hs hattach with ⟨e, -, hrun⟩ | ⟨w, s', hrun, -, hs', -⟩
  · rw [hrun]
    exact hs
  · rw [hrun]
    exact hs'

theorem Tracks.keeps_settle (T : F.Tracks K) (hs : Tracking K s)
    (hattach : F.attach name s.server = (.ok h, s.server)) (batch : List Item) :
    Tracking K (F.settle name h batch s).2 ∧
      ∀ s', F.settle name h batch s = (.ok (), s') → s'.server = s.server ∧
        ∃ w, s'.dimensions.cachedWidth? name = some w ∧
          ∀ v ∈ batch.filterMap (·.embedding), v.length = w := by
  unfold settle
  rcases T.resolve_cases hs hattach with ⟨e, -, hrun⟩ | ⟨w, s₁, hrun, hserver, hs₁, hwidth⟩
  · rw [Step.bind_of_error hrun]
    exact ⟨hs, nofun⟩
  rw [Step.bind_of_ok hrun]
  cases hcheck : Batch.checkDimensions (.known w) batch with
  | error e =>
    rw [Step.bind_of_error (Action.ofResult_apply _ _)]
    exact ⟨hs₁, nofun⟩
  | ok width =>
    obtain ⟨rfl, hfits⟩ := Batch.commonWidth_some_eq_ok hcheck
    rw [Step.bind_of_ok (Action.ofResult_apply _ _)]
    -- what is learned from the batch is known already
    have hsame : Function.update s₁.dimensions.cachedWidth? name (some w) =
        s₁.dimensions.cachedWidth? := by rw [← hwidth, Function.update_eq_self]
    have hlearned : Tracking K { s₁ with dimensions := s₁.dimensions.record name w } :=
      hs₁.record (hsame.symm ▸ hs₁.agrees)
    simp only [learn]
    split
    · refine ⟨hlearned, fun s' hs' => ?_⟩
      obtain ⟨-, rfl⟩ := Prod.mk.inj hs'
      refine ⟨hserver, w, ?_, hfits⟩
      show (s₁.dimensions.record name w).cachedWidth? name = some w
      rw [hs₁.remembers.cachedWidth?_record, hsame, hwidth]
    · refine ⟨hs₁, fun s' hs' => ?_⟩
      obtain ⟨-, rfl⟩ := Prod.mk.inj hs'
      exact ⟨hserver, w, hwidth, hfits⟩

/-- An addition reaches its write, if at all, with a batch of the width that is known. -/
theorem Tracks.addItems_cases (T : F.Tracks K) (hs : Tracking K s) (name : String)
    (items : List Item) :
    (∃ r s', Tracking K s' ∧ ∀ write,
        addItems { F with write } name items s = (r, s')) ∨
      ∃ h batch w s', Tracking K s' ∧ F.attach name s'.server = (.ok h, s'.server) ∧
        s'.dimensions.cachedWidth? name = some w ∧
        (∀ v ∈ batch.filterMap (·.embedding), v.length = w) ∧ ∀ write,
          addItems { F with write } name items s = (do
            onServer (write h batch)
            dropListings name : Action (Session τ) Unit) s' := by
  by_cases hconn : s.connected = true
  swap
  · exact .inl ⟨_, s, hs, fun write => by rw [addItems_eq, ensureConnected_bind_of_not hconn]⟩
  cases hitems : items.isEmpty with
  | true =>
    exact .inl ⟨.ok (), s, hs, fun write => by
      rw [addItems_eq, ensureConnected_bind hconn, hitems, if_pos rfl]; rfl⟩
  | false =>
    have hrun : ∀ write, addItems { F with write } name items s = (do
        let submitted ← F.submit name items
        F.settle name submitted.1 submitted.2
        onServer (write submitted.1 submitted.2)
        dropListings name : Action (Session τ) Unit) s := fun write => by
      rw [addItems_eq, ensureConnected_bind hconn, hitems, if_neg Bool.false_ne_true]
      rfl
    have hsubmitted := keeps_submit T.reads (fun s _ hs => Tracking.of_same hs rfl rfl) name items
      s hs
    rcases hsubmit : F.submit name items s with ⟨e | ⟨h, batch⟩, s₁⟩ <;>
      rw [hsubmit] at hsubmitted
    · exact .inl ⟨.error e, s₁, hsubmitted, fun write => by
        rw [hrun, Step.bind_of_error hsubmit]⟩
    obtain ⟨hattach, -, requests, rfl⟩ := submit_eq_ok T.reads hsubmit
    obtain ⟨hsettled, hfits⟩ := T.keeps_settle hsubmitted hattach batch
    rcases hsettle : F.settle name h batch { s with requests := requests } with ⟨e | _, s₂⟩ <;>
      rw [hsettle] at hsettled
    · exact .inl ⟨.error e, s₂, hsettled, fun write => by
        rw [hrun, Step.bind_of_ok hsubmit, Step.bind_of_error hsettle]⟩
    obtain ⟨hserver, w, hwidth, hfits⟩ := hfits s₂ hsettle
    refine .inr ⟨h, batch, w, s₂, hsettled, by rwa [hserver], hwidth, hfits, fun write => ?_⟩
    rw [hrun, Step.bind_of_ok hsubmit, Step.bind_of_ok hsettle]

/-! ## Every call -/

theorem Tracks.keeps_addItems (T : F.Tracks K) (name : String) (items : List Item) :
    Step.Keeps (Tracking K) (F.addItems name items) := by
  intro s hs
  rcases T.addItems_cases hs name items with ⟨r, s', hs', hrun⟩ |
    ⟨h, batch, w, s', hs', hattach, hwidth, hfits, hrun⟩
  · rw [show F.addItems name items s = (r, s') from hrun F.write]
    exact hs'
  · rw [show F.addItems name items s = _ from hrun F.write]
    refine Step.keeps_bind_at ?_ fun _ s₁ hwrite => ?_
    · exact ⟨hs'.remembers, T.write hs'.agrees hattach hwidth hfits⟩
    · obtain ⟨-, rfl⟩ := Prod.mk.inj hwrite
      exact ⟨hs'.remembers, T.write hs'.agrees hattach hwidth hfits⟩

/-- A creation keeps widths in step when the server does, for the width asked for. -/
theorem keeps_createCollection
    (hcreate : ∀ {c ws t name width metric t'}, K ws t →
      F.create c name width metric t = (.ok (), t') → K (Function.update ws name (some width)) t')
    (hfail : ∀ {c ws t name width metric e t'}, K ws t →
      F.create c name width metric t = (.error e, t') → K ws t')
    (name : String) (width : Nat) (metric : Metric) :
    Step.Keeps (Tracking K) (F.createCollection name width metric) := by
  refine Step.Keeps.bind leaves_ensureConnected.keeps fun _ => Step.Keeps.bind (fun _ hs => hs)
    fun _ s hs => ?_
  rw [Step.bind_of_ok (Step.get_apply s)]
  rcases hask : F.create s.context name width metric s.server with ⟨e | _, t⟩
  · rw [Step.bind_of_error (call_of_error hask)]
    exact ⟨hs.remembers, hfail hs.agrees hask⟩
  · rw [Step.bind_of_ok (call_of_ok hask)]
    exact hs.record (hcreate hs.agrees hask)

theorem Tracks.keeps_dropCollection (T : F.Tracks K) (name : String) :
    Step.Keeps (Tracking K) (F.dropCollection name) := by
  refine Step.Keeps.bind leaves_ensureConnected.keeps fun _ s hs => ?_
  rcases hask : F.drop name s.server with ⟨e | _, t⟩
  · rw [Step.bind_of_error (call_of_error hask)]
    exact ⟨hs.remembers, T.drop_error hs.agrees hask⟩
  · rw [Step.bind_of_ok (call_of_ok hask)]
    exact (hs.forget (T.drop hs.agrees hask)).of_same rfl rfl

/-- **Every operation keeps widths in step with the server**, when a creation does. -/
theorem Tracks.keeps (T : F.Tracks K) {create : String → Nat → Metric → Action (Session τ) Unit}
    (hcreate : ∀ name width metric, Step.Keeps (Tracking K) (create name width metric)) :
    ({ F.adapter with createCollection := create } : Adapter (Session τ)).Keeps (Tracking K)
      fun _ => True where
  connect := Step.Keeps.bind (keeps_ask T.reads.ping) fun _ _ hs => Tracking.of_same hs rfl rfl
  disconnect _ hs := hs.of_same rfl rfl
  listCollections := Step.Keeps.bind leaves_ensureConnected.keeps fun _ => keeps_ask T.reads.names
  createCollection := hcreate
  describe _ := keeps_describe T.reads
    (fun hinspect hs => T.keeps_resolve hs (T.attach_of_inspect hinspect))
    fun htrusts {_ _ _ _} hinspect hdeclared hs =>
      hs.record (T.told htrusts hs.agrees hinspect hdeclared)
  addItems name items _ := T.keeps_addItems name items
  getItems name ids := (leaves_getItems T.reads name ids).keeps
  listItems := lasts_listItems Tracking.unlisted T.reads
  updateItems name updates _ := lasts_updateItems T.reads T.keeps_addItems name updates
  deleteItems := lasts_deleteItems Tracking.unlisted T.reads
    (fun h ids => keeps_call fun ws => T.eraseIds ws h ids)
    fun h fragment => keeps_call fun ws => T.eraseWhere ws h fragment
  dropCollection := T.keeps_dropCollection
  countItems name :=
    Step.Keeps.bind leaves_ensureConnected.keeps fun _ => keeps_ask (T.reads.count name)
  search _ := keeps_search T.reads
    (fun hinspect hs => T.keeps_resolve hs (T.attach_of_inspect hinspect))
    fun _ _ hs => hs.of_same rfl rfl
  metadata name := (leaves_metadata T.reads name).keeps

/-! ## Writes that are not reached -/

/-- The family with some of its writes done otherwise. -/
def rewriting (F : Family τ Handle Condition Fragment) (selected : Handle → List Item → τ → Bool)
    (instead : Handle → List Item → Action τ Unit) : Family τ Handle Condition Fragment :=
  { F with write := fun h batch t =>
      if selected h batch t then instead h batch t else F.write h batch t }

section Rewriting

variable {selected : Handle → List Item → τ → Bool}

/-- The writes of batches that have the width that is remembered are not selected. -/
def Misses (F : Family τ Handle Condition Fragment) (K : (String → Option Nat) → τ → Prop)
    (selected : Handle → List Item → τ → Bool) : Prop :=
  ∀ {ws t name h batch w}, K ws t → F.attach name t = (.ok h, t) → ws name = some w →
    (∀ v ∈ batch.filterMap (·.embedding), v.length = w) → selected h batch t = false

theorem Tracks.addItems_rewriting (T : F.Tracks K) (hmisses : F.Misses K selected)
    (instead : Handle → List Item → Action τ Unit) (hs : Tracking K s) (name : String)
    (items : List Item) :
    (F.rewriting selected instead).addItems name items s = F.addItems name items s := by
  rcases T.addItems_cases hs name items with ⟨r, s', -, hrun⟩ |
    ⟨h, batch, w, s', hs', hattach, hwidth, hfits, hrun⟩
  · exact (hrun _).trans (hrun F.write).symm
  · refine (hrun _).trans (.trans ?_ (hrun F.write).symm)
    refine Step.bind_congr_at ?_ fun _ _ _ => rfl
    rw [onServer_apply, onServer_apply, if_neg]
    rw [hmisses hs'.agrees hattach hwidth hfits]
    exact Bool.false_ne_true

theorem Tracks.updateItems_rewriting (T : F.Tracks K) (hmisses : F.Misses K selected)
    (instead : Handle → List Item → Action τ Unit) (hs : Tracking K s) (name : String)
    (updates : List ItemUpdate) :
    (F.rewriting selected instead).updateItems name updates s = F.updateItems name updates s := by
  by_cases hconn : s.connected = true
  swap
  · rw [updateItems, updateItems, ensureConnected_bind_of_not hconn,
      ensureConnected_bind_of_not hconn]
  rw [updateItems, updateItems, ensureConnected_bind hconn, ensureConnected_bind hconn]
  split
  · rfl
  -- what is stored is read alike, and merged alike
  refine Step.bind_congr_at rfl fun stored s₁ hread => ?_
  obtain rfl : s₁ = s := by
    rw [← leaves_getItems T.reads name (updates.map (·.id)) s]
    exact congrArg Prod.snd hread.symm
  refine Step.bind_congr_at rfl fun _ s₂ hget => ?_
  obtain ⟨-, rfl⟩ := Prod.mk.inj hget
  refine Step.bind_congr_at rfl fun merged s₃ hmerge => ?_
  obtain ⟨-, rfl⟩ := Prod.mk.inj hmerge
  exact T.addItems_rewriting hmisses instead hs name merged

/-- Only additions and updates write. -/
theorem adapter_rewriting (F : Family τ Handle Condition Fragment)
    (selected : Handle → List Item → τ → Bool) (instead : Handle → List Item → Action τ Unit) :
    (F.rewriting selected instead).adapter =
      { F.adapter with
        addItems := (F.rewriting selected instead).addItems
        updateItems := (F.rewriting selected instead).updateItems } := rfl

/-- **No call reaches a write that is not of the width that is remembered**: what such a
write would do makes no difference. -/
theorem Tracks.perform_rewriting (T : F.Tracks K) (hmisses : F.Misses K selected)
    (instead : Handle → List Item → Action τ Unit) (hs : Tracking K s) (c : AdapterCall) :
    (F.rewriting selected instead).adapter.perform c s = F.adapter.perform c s := by
  rw [adapter_rewriting]
  exact Adapter.perform_of_writes (T.addItems_rewriting hmisses instead hs)
    (T.updateItems_rewriting hmisses instead hs) c

/-- **Nor does any run.** -/
theorem Tracks.run_rewriting (T : F.Tracks K) (hmisses : F.Misses K selected)
    (instead : Handle → List Item → Action τ Unit)
    (hcreate : ∀ name width metric,
      Step.Keeps (Tracking K) (F.createCollection name width metric)) (calls : List AdapterCall)
    (hs : Tracking K s) :
    (F.rewriting selected instead).adapter.run calls s = F.adapter.run calls s := by
  have hkeeps : F.adapter.Keeps (Tracking K) fun _ => True := T.keeps hcreate
  induction calls generalizing s with
  | nil => simp only [Adapter.run]
  | cons call calls ih =>
    have hkept : Tracking K (F.adapter.perform call s).2 :=
      hkeeps.perform (AdapterCall.admissible_of_forall (fun _ => trivial) call) s hs
    simp only [Adapter.run]
    rw [T.perform_rewriting hmisses instead hs call]
    rcases hrun : F.adapter.perform call s with ⟨answer, s₁⟩
    rw [hrun] at hkept
    simp only [ih hkept]

end Rewriting

end Family

end VectorBridge
