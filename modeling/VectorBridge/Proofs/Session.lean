import VectorBridge.Proofs.Drain
import VectorBridge.Proofs.Json.Printing
import VectorBridge.Proofs.Keyed
import VectorBridge.Proofs.Step
/-!
# Steps of a session

What each step of a session answers and leaves behind. A call reaches the
server alone, a request to the provider the log alone, and a listing that is
fetched whole is kept under its key, so every later page of a walk is cut from
what the first page fetched.
-/

namespace VectorBridge

namespace Action

variable {σ α : Type}

@[simp] theorem ofResult_apply (r : Result α) (s : σ) : (ofResult r : Action σ α) s = (r, s) := rfl

/-- What comes after a check that is passed. -/
theorem ofResult_bind_of_ok {β : Type} {r : Result α} {a : α} {s : σ} (h : r = .ok a)
    (f : α → Action σ β) : (ofResult r >>= f) s = f a s :=
  Step.bind_of_ok (by rw [ofResult_apply, h]) f

/-- What succeeds after a check has passed it. -/
theorem ofResult_bind_eq_ok_iff {β : Type} {r : Result α} {f : α → Action σ β} {s s' : σ} {b : β} :
    (ofResult r >>= f) s = (.ok b, s') ↔ ∃ a, r = .ok a ∧ f a s = (.ok b, s') := by
  rw [Step.bind_eq_ok_iff]
  constructor
  · rintro ⟨a, s₁, hr, hf⟩
    cases hr
    exact ⟨a, rfl, hf⟩
  · rintro ⟨a, rfl, hf⟩
    exact ⟨a, s, rfl, hf⟩

end Action

theorem PageRequest.validate_eq_ok_iff {request : PageRequest} :
    request.validate = .ok () ↔ 0 < request.size := by
  rw [PageRequest.validate, Nat.pos_iff_ne_zero]
  split
  · rename_i hsize
    exact ⟨fun h => (by cases h), fun h => absurd hsize h⟩
  · rename_i hsize
    exact ⟨fun _ => hsize, fun _ => rfl⟩

/-! ## Keys of listings -/

namespace Listings

/-- Lists that end alike after the last place of an entry begin alike before it. -/
theorem append_cons_inj {α : Type} {c : α} {l l' t t' : List α} (ht : c ∉ t) (ht' : c ∉ t')
    (h : l ++ c :: t = l' ++ c :: t') : l = l' ∧ t = t' := by
  rcases List.append_eq_append_iff.1 h with ⟨m, rfl, hm⟩ | ⟨m, rfl, hm⟩
  · cases m with
    | nil => exact ⟨(List.append_nil l).symm, (List.cons.inj hm).2⟩
    | cons d m =>
      exact absurd ((List.cons.inj hm).2 ▸ List.mem_append_right m List.mem_cons_self) ht
  · cases m with
    | nil => exact ⟨List.append_nil l', (List.cons.inj hm).2.symm⟩
    | cons d m =>
      exact absurd ((List.cons.inj hm).2 ▸ List.mem_append_right m List.mem_cons_self) ht'

/-- **A key tells what it is made of**, when the texts of the filters have no
control characters. -/
theorem key_inj {collection collection' text text' : String}
    (htext : Json.Printable text) (htext' : Json.Printable text')
    (h : Listings.key collection text = Listings.key collection' text') :
    collection = collection' ∧ text = text' := by
  have hseparator : separator.toList = [Char.ofNat 31] := by decide
  have hfree : ∀ {t : String}, Json.Printable t → Char.ofNat 31 ∉ t.toList := by
    intro t ht hmem
    exact absurd (ht _ hmem) (by decide)
  have hlists := congrArg String.toList h
  simp only [Listings.key, Listings.keyStart, String.toList_append, hseparator,
    List.append_assoc, List.singleton_append] at hlists
  obtain ⟨hcollection, htexts⟩ := append_cons_inj (hfree htext) (hfree htext') hlists
  exact ⟨String.toList_inj.1 hcollection, String.toList_inj.1 htexts⟩

end Listings

/-! ## Resolvers that remember -/

namespace DimensionResolver

/-- What a resolver learned it remembers, and it decides nothing by itself. -/
def Remembers : DimensionResolver → Prop
  | cached _ => True
  | fixed _ | custom _ _ => False

variable {τ : Type} {r : DimensionResolver}

theorem Remembers.record (h : r.Remembers) (collection : String) (width : Nat) :
    (r.record collection width).Remembers := by
  cases r with
  | cached ws => trivial
  | fixed d | custom history decide => cases h

theorem Remembers.forget (h : r.Remembers) (collection : String) :
    (r.forget collection).Remembers := by
  cases r with
  | cached ws => trivial
  | fixed d | custom history decide => cases h

/-- Whatever the server answers, a resolver goes on to remember. -/
theorem Remembers.resolve (h : r.Remembers) (collection : String)
    (declared probed : StateM τ (Result (Option Nat))) (t : τ) :
    (r.resolve collection declared probed t).1.2.Remembers := by
  cases r with
  | cached ws =>
    rw [DimensionResolver.resolve]
    cases Keyed.get? collection ws with
    | some w => trivial
    | none =>
      simp only
      rw [Step.state_bind_apply]
      rcases (declared t).1 with e | _ | w
      · trivial
      · simp only
        rw [Step.state_bind_apply]
        rcases (probed (declared t).2).1 with e | _ | w <;> trivial
      · trivial
  | fixed d | custom history decide => cases h

end DimensionResolver

namespace Session

/-- What a key has of a filter has no control characters. -/
theorem printable_fingerprint (filter : Option Filter) :
    Json.Printable ((filter.map fun f => f.toJson.text).getD "") := by
  cases filter with
  | none => exact Json.printable_of_all rfl
  | some f => exact Json.printable_text _

/-- A key of a listing tells the collection and the text of the filter, if there is
one. -/
theorem listingKey_inj {name name' : String} {filter filter' : Option Filter}
    (h : listingKey name filter = listingKey name' filter') :
    name = name' ∧ filter.map (·.toJson.text) = filter'.map (·.toJson.text) := by
  -- no filter is printed as nothing, because a list begins with a bracket
  have hsome : ∀ f : Filter, f.toJson.text ≠ "" := by
    intro f hempty
    have hlist := congrArg String.toList hempty
    rw [Filter.toJson, Json.text, String.toList_append, String.toList_append] at hlist
    cases hlist
  obtain ⟨hname, htext⟩ :=
    Listings.key_inj (printable_fingerprint filter) (printable_fingerprint filter') h
  refine ⟨hname, ?_⟩
  cases filter with
  | none =>
    cases filter' with
    | none => rfl
    | some f' => exact absurd htext.symm (hsome f')
  | some f =>
    cases filter' with
    | none => exact absurd htext (hsome f)
    | some f' => exact congrArg some htext

/-- The listings of a collection are those that its keys begin. -/
theorem startsWith_listingKey (name : String) (filter : Option Filter) :
    Text.startsWith (listingKey name filter) (Listings.keyStart name) = true := by
  rw [Text.startsWith, List.isPrefixOf_iff_prefix, listingKey, Listings.key, String.toList_append]
  exact List.prefix_append _ _

end Session

namespace Call

variable {τ α : Type}

@[simp] theorem read_apply (f : τ → Except TransportError α) (t : τ) : read f t = (f t, t) := rfl

theorem toAction_of_ok {c : Call τ α} {t t' : τ} {a : α} (h : c t = (.ok a, t')) :
    c.toAction t = (.ok a, t') := by
  rw [toAction, h]

theorem toAction_of_error {c : Call τ α} {t t' : τ} {e : TransportError}
    (h : c t = (.error e, t')) : c.toAction t = (.error e.toError, t') := by
  rw [toAction, h]

/-- A call succeeds as an action exactly when it succeeds. -/
theorem toAction_eq_ok_iff {c : Call τ α} {t t' : τ} {a : α} :
    c.toAction t = (.ok a, t') ↔ c t = (.ok a, t') := by
  refine ⟨fun h => ?_, toAction_of_ok⟩
  rw [toAction] at h
  rcases hc : c t with ⟨e | b, t₁⟩ <;> rw [hc] at h <;> cases h
  rfl

end Call

namespace Session

variable {τ α : Type}

@[simp] theorem onServer_apply (a : Action τ α) (s : Session τ) :
    onServer a s = ((a s.server).1, { s with server := (a s.server).2 }) := rfl

@[simp] theorem embedding_apply (f : Context → Action (List EmbeddingRequest) α)
    (s : Session τ) :
    embedding f s =
      ((f s.context s.requests).1, { s with requests := (f s.context s.requests).2 }) := rfl

theorem ensureConnected_apply (s : Session τ) :
    ensureConnected s = (if s.connected then .ok () else .error .notConnected, s) := by
  rw [ensureConnected, Step.bind_of_ok (Step.get_apply s)]
  split <;> rfl

/-- A step after the check of the connection happens when there is one. -/
theorem ensureConnected_bind {s : Session τ} (h : s.connected = true)
    (f : Unit → Action (Session τ) α) : (ensureConnected >>= f) s = f () s :=
  Step.bind_of_ok (by rw [ensureConnected_apply, if_pos h]) f

/-- Without a connection nothing comes after the check. -/
theorem ensureConnected_bind_of_not {s : Session τ} (h : ¬ s.connected = true)
    (f : Unit → Action (Session τ) α) :
    (ensureConnected >>= f) s = (.error .notConnected, s) :=
  Step.bind_of_error (by rw [ensureConnected_apply, if_neg h]) f

/-- What succeeds after the check of the connection has one. -/
theorem ensureConnected_bind_eq_ok_iff {s s' : Session τ} {f : Unit → Action (Session τ) α}
    {a : α} :
    (ensureConnected >>= f) s = (.ok a, s') ↔ s.connected = true ∧ f () s = (.ok a, s') := by
  rw [Step.bind_eq_ok_iff]
  simp only [ensureConnected_apply]
  by_cases h : s.connected = true
  · rw [if_pos h]
    exact ⟨fun ⟨_, _, h₁, h₂⟩ => (by cases h₁; exact ⟨h, h₂⟩), fun h' => ⟨(), s, rfl, h'.2⟩⟩
  · rw [if_neg h]
    exact ⟨fun ⟨_, _, h₁, _⟩ => (by cases h₁), fun h' => absurd h'.1 h⟩

theorem call_of_ok {c : Call τ α} {s : Session τ} {t : τ} {a : α}
    (h : c s.server = (.ok a, t)) : call c s = (.ok a, { s with server := t }) := by
  rw [call, onServer_apply, Call.toAction_of_ok h]

theorem call_of_error {c : Call τ α} {s : Session τ} {t : τ} {e : TransportError}
    (h : c s.server = (.error e, t)) :
    call c s = (.error e.toError, { s with server := t }) := by
  rw [call, onServer_apply, Call.toAction_of_error h]

theorem call_eq_ok_iff {c : Call τ α} {s s' : Session τ} {a : α} :
    call c s = (.ok a, s') ↔
      ∃ t, c s.server = (.ok a, t) ∧ s' = { s with server := t } := by
  rw [call, onServer_apply]
  rcases hc : c.toAction s.server with ⟨r, t⟩
  constructor
  · intro h
    cases h
    exact ⟨t, Call.toAction_eq_ok_iff.1 hc, rfl⟩
  · rintro ⟨t', h, rfl⟩
    rw [Call.toAction_of_ok h] at hc
    cases hc
    rfl

@[simp] theorem recordWidth_apply (collection : String) (width : Nat) (s : Session τ) :
    recordWidth collection width s =
      (.ok (), { s with dimensions := s.dimensions.record collection width }) := rfl

@[simp] theorem forgetWidth_apply (collection : String) (s : Session τ) :
    forgetWidth collection s =
      (.ok (), { s with dimensions := s.dimensions.forget collection }) := rfl

@[simp] theorem dropListings_apply (collection : String) (s : Session τ) :
    dropListings collection s =
      (.ok (), { s with listings := s.listings.invalidate (Listings.keyStart collection) }) := rfl

@[simp] theorem keepListing_apply (key : String) (items : List Item) (s : Session τ) :
    keepListing key items s =
      (.ok (), { s with listings := Keyed.insert key items s.listings }) := rfl

/-! ## Widths that are remembered -/

section Widths

variable {s : Session τ} {ws : Keyed String Nat} {collection : String}
variable {declared probed : Call τ (Option Nat)}

/-- A remembered width is not asked for. -/
theorem resolveWidth_of_cached {w : Nat} (hs : s.dimensions = .cached ws)
    (hw : Keyed.get? collection ws = some w) :
    resolveWidth collection declared probed s = (.ok (.known w), s) := by
  simp only [resolveWidth, hs, DimensionResolver.resolve, hw]
  rw [← hs]
  rfl

/-- A declared width is remembered. -/
theorem resolveWidth_of_declared {w : Nat} {t : τ} (hs : s.dimensions = .cached ws)
    (hw : Keyed.get? collection ws = none)
    (hd : declared.toAction s.server = (.ok (some w), t)) :
    resolveWidth collection declared probed s =
      (.ok (.known w),
        { s with server := t, dimensions := s.dimensions.record collection w }) := by
  simp only [resolveWidth, hs, DimensionResolver.resolve, hw]
  rw [Step.state_bind_apply, hd]
  rfl

/-- Without a declaration to be had nothing is remembered. -/
theorem resolveWidth_of_error {e : Error} {t : τ} (hs : s.dimensions = .cached ws)
    (hw : Keyed.get? collection ws = none) (hd : declared.toAction s.server = (.error e, t)) :
    resolveWidth collection declared probed s = (.error e, { s with server := t }) := by
  simp only [resolveWidth, hs, DimensionResolver.resolve, hw]
  rw [Step.state_bind_apply, hd, ← hs]
  rfl

/-- **What remembers widths has an answer when the server has**: the width that is
remembered, else the one that is declared, else the one that is probed. -/
theorem resolveWidth_eq (collection : String) {w w' : Option Nat} (hs : s.dimensions.Remembers)
    (hd : declared s.server = (.ok w, s.server)) (hp : probed s.server = (.ok w', s.server)) :
    ∃ dimensions, resolveWidth collection declared probed s =
      (.ok (.ofOption (s.dimensions.cachedWidth? collection <|> w <|> w')),
        { s with dimensions }) := by
  have hd' := Call.toAction_of_ok hd
  have hp' := Call.toAction_of_ok hp
  cases hdims : s.dimensions with
  | cached ws =>
    rw [DimensionResolver.cachedWidth?]
    cases hget : Keyed.get? collection ws with
    | some known =>
      refine ⟨s.dimensions, ?_⟩
      rw [resolveWidth_of_cached hdims hget]
      rfl
    | none =>
      cases w with
      | some declaredWidth =>
        refine ⟨s.dimensions.record collection declaredWidth, ?_⟩
        rw [resolveWidth_of_declared hdims hget hd']
        rfl
      | none =>
        simp only [resolveWidth, hdims, DimensionResolver.resolve, hget]
        rw [Step.state_bind_apply, hd']
        simp only
        rw [Step.state_bind_apply, hp']
        cases w' <;> exact ⟨_, rfl⟩
  | fixed d | custom history decide =>
    rw [hdims] at hs
    cases hs

end Widths

/-! ## Listings fetched whole -/

section Materialized

variable {s s' : Session τ} {key : String} {size : Nat} {fetch : Action (Session τ) (List Item)}

/-- A listing is fetched for a first page, and when nothing is held. -/
theorem fetches_iff {token : Option PageToken} {l : Listings Item} :
    (token.isNone || !Keyed.hasKey key l) = true ↔ token = none ∨ Keyed.get? key l = none := by
  simp [Keyed.hasKey_eq_isSome]

/-- A page is cut from what is fetched, and that is kept. -/
theorem materialized_fetched {request : PageRequest} {found : List Item}
    (hnew : request.token = none ∨ Keyed.get? key s.listings = none) (hsize : 0 < request.size)
    (hfetch : fetch s = (.ok found, s')) :
    materialized key request fetch s =
      (request.offset.map fun offset => Page.slice found offset request.size,
        { s' with listings := Keyed.insert key found s'.listings }) := by
  simp only [materialized]
  rw [Step.bind_of_ok (Step.get_apply s), if_pos (fetches_iff.2 hnew), Step.bind_of_ok hfetch,
    Step.bind_of_ok (keepListing_apply key found s'), Step.bind_of_ok (Step.get_apply _)]
  simp only [Listings.slice?, PageRequest.validate_eq_ok_iff.2 hsize]
  cases request.offset <;>
    simp [Keyed.get?_insert_self, Action.ofResult, Step.bind_apply, Except.map]

/-- Otherwise it is cut from what is held. -/
theorem materialized_held {request : PageRequest} {found : List Item}
    (htoken : request.token.isSome = true) (hsize : 0 < request.size)
    (hheld : Keyed.get? key s.listings = some found) :
    materialized key request fetch s =
      (request.offset.map fun offset => Page.slice found offset request.size, s) := by
  have hold : ¬ (request.token = none ∨ Keyed.get? key s.listings = none) := by
    rw [not_or, hheld]
    exact ⟨Option.isSome_iff_ne_none.1 htoken, Option.some_ne_none found⟩
  simp only [materialized]
  rw [Step.bind_of_ok (Step.get_apply s), if_neg (mt fetches_iff.1 hold),
    Step.bind_of_ok (Step.get_apply s)]
  simp only [Listings.slice?, PageRequest.validate_eq_ok_iff.2 hsize]
  cases request.offset <;> simp [hheld, Action.ofResult, Step.bind_apply, Except.map]

/-- Nothing is cut when the fetching fails. -/
theorem materialized_failed {request : PageRequest} {e : Error}
    (hnew : request.token = none ∨ Keyed.get? key s.listings = none)
    (hfetch : fetch s = (.error e, s')) : materialized key request fetch s = (.error e, s') := by
  simp only [materialized]
  rw [Step.bind_of_ok (Step.get_apply s), if_pos (fetches_iff.2 hnew), Step.bind_of_error hfetch]

/-- A first page is cut from what is fetched, and that is kept. -/
theorem materialized_first {found : List Item} (hsize : 0 < size)
    (hfetch : fetch s = (.ok found, s')) :
    materialized key ⟨none, size⟩ fetch s =
      (.ok (Page.slice found 0 size),
        { s' with listings := Keyed.insert key found s'.listings }) :=
  materialized_fetched (.inl rfl) hsize hfetch

/-- Without anything fetched there is no first page. -/
theorem materialized_first_eq_ok {page : Page Item}
    (h : materialized key ⟨none, size⟩ fetch s = (.ok page, s')) :
    ∃ found s₁, fetch s = (.ok found, s₁) := by
  simp only [materialized, Option.isNone_none, Bool.true_or, reduceIte] at h
  rw [Step.bind_of_ok (Step.get_apply s)] at h
  obtain ⟨found, s₁, hfetch, -⟩ := Step.bind_eq_ok_iff.1 h
  exact ⟨found, s₁, hfetch⟩

/-- A later page is cut from what is kept. -/
theorem materialized_next {found : List Item} {token : PageToken} {offset : Nat}
    (ho : (PageRequest.mk (some token) size).offset = .ok offset) (hsize : 0 < size)
    (hheld : Keyed.get? key s.listings = some found) :
    materialized key ⟨some token, size⟩ fetch s = (.ok (Page.slice found offset size), s) := by
  rw [materialized_held rfl hsize hheld, ho]
  rfl

/-- A session in the middle of a walk: the server is as it was, and the listing
is held. -/
structure Walking (t : τ) (key : String) (found : List Item) (s : Session τ) : Prop where
  server : s.server = t
  connected : s.connected = true
  held : Keyed.get? key s.listings = some found

/-- **A drain of pages that are cut from what is fetched is what is fetched.** -/
theorem drains_materialized {readPage : PageRequest → Action (Session τ) (Page Item)}
    {found : List Item}
    (hpage : ∀ {request page s₁ s₂}, s₁.server = s.server →
      readPage request s₁ = (.ok page, s₂) →
        s₁.connected = true ∧ 0 < request.size ∧ materialized key request fetch s₁ = (.ok page, s₂))
    (hfetch : fetch s = (.ok found, s)) {sizes : List Nat} {items : List Item}
    (hdrain : Drains readPage none sizes s items s') :
    items = found ∧ Walking s.server key found s' := by
  -- every page but the first is cut from the listing that the first one fetched
  refine hdrain.eq_found (fun hlist => ?_) (fun hwalk htoken hlist => ?_)
  · obtain ⟨hconn, hsize, hcut⟩ := hpage rfl hlist
    rw [materialized_first hsize hfetch] at hcut
    cases hcut
    exact ⟨⟨rfl, hconn, Keyed.get?_insert_self _ _ _⟩, cutsAt_slice _⟩
  · obtain ⟨-, hsize, hcut⟩ := hpage hwalk.server hlist
    rw [materialized_next (htoken _) hsize hwalk.held] at hcut
    cases hcut
    exact ⟨hwalk, cutsAt_slice _⟩

end Materialized

/-! ## What a session keeps of its server -/

section Keeping

variable {I : τ → Prop}

/-- The property of a session that its server has a property. -/
def ServerHas (I : τ → Prop) (s : Session τ) : Prop := I s.server

theorem leaves_ensureConnected : Step.Leaves (ensureConnected (τ := τ)) := fun s => by
  rw [ensureConnected_apply]

theorem Keeps.onServer {a : Action τ α} (h : Step.Keeps I a) :
    Step.Keeps (ServerHas I) (onServer a) := fun s hs => h s.server hs

theorem toAction_snd (c : Call τ α) (t : τ) : (c.toAction t).2 = (c t).2 := by
  rw [Call.toAction]
  rcases c t with ⟨_ | _, _⟩ <;> rfl

theorem Keeps.call {c : Call τ α} (h : Step.Keeps I c) :
    Step.Keeps (ServerHas I) (call c) :=
  Keeps.onServer fun t ht => by rw [toAction_snd]; exact h t ht

/-- What resolves widths asks questions, and the rest is its own. -/
theorem resolveWidth_server {declared probed : Call τ (Option Nat)} (hd : Step.Leaves declared)
    (hp : Step.Leaves probed) (collection : String) (s : Session τ) :
    (resolveWidth collection declared probed s).2.server = s.server := by
  have hd' : ∀ t, (declared.toAction t).2 = t := fun t => by rw [toAction_snd, hd]
  have hp' : ∀ t, (probed.toAction t).2 = t := fun t => by rw [toAction_snd, hp]
  simp only [resolveWidth]
  cases s.dimensions with
  | fixed d => rfl
  | cached ws =>
    simp only [DimensionResolver.resolve]
    cases Keyed.get? collection ws with
    | some w => rfl
    | none =>
      simp only
      rw [Step.state_bind_apply, hd']
      rcases (declared.toAction s.server).1 with e | _ | w
      · rfl
      · exact hp' s.server
      · rfl
  | custom history decide =>
    show (probed.toAction (declared.toAction s.server).2).2 = s.server
    rw [hd', hp']

/-- The server and the connection to it are as they were. -/
structure Untouched (s s' : Session τ) : Prop where
  server : s'.server = s.server
  connected : s'.connected = s.connected

theorem Untouched.trans {s s' s'' : Session τ} (h : Untouched s s') (h' : Untouched s' s'') :
    Untouched s s'' where
  server := h'.server.trans h.server
  connected := h'.connected.trans h.connected

theorem untouched_call {c : Call τ α} (hc : Step.Leaves c) (s : Session τ) :
    Untouched s (call c s).2 where
  server := by rw [Session.call, onServer_apply, toAction_snd, hc]
  connected := rfl

theorem untouched_resolveWidth {declared probed : Call τ (Option Nat)} (hd : Step.Leaves declared)
    (hp : Step.Leaves probed) (collection : String) (s : Session τ) :
    Untouched s (resolveWidth collection declared probed s).2 where
  server := resolveWidth_server hd hp collection s
  connected := rfl

/-- The server, the connection to it and the kind of resolver are as they were; what
is learned, held and asked for is the session's own. -/
structure Steady (s s' : Session τ) : Prop extends Untouched s s' where
  remembers : s.dimensions.Remembers → s'.dimensions.Remembers

theorem steady_resolveWidth {declared probed : Call τ (Option Nat)} (hd : Step.Leaves declared)
    (hp : Step.Leaves probed) (collection : String) (s : Session τ) :
    Steady s (resolveWidth collection declared probed s).2 where
  toUntouched := untouched_resolveWidth hd hp collection s
  remembers h := h.resolve collection _ _ s.server

/-- A property of sessions that what a session learns and asks for does not touch. -/
def Enduring (J : Session τ → Prop) : Prop :=
  ∀ {s s'}, Steady s s' → s'.listings = s.listings → J s → J s'

/-- A property of sessions that what a session learns, holds and asks for does not
touch. -/
def Lasting (J : Session τ → Prop) : Prop := ∀ {s s'}, Steady s s' → J s → J s'

/-- A property of sessions that what a session holds of listings does not touch. -/
def Unlisted (J : Session τ → Prop) : Prop :=
  ∀ s (listings : Listings Item), J s → J { s with listings }

theorem lasting_serverHas : Lasting (ServerHas I) := fun h hs => by
  rw [ServerHas, h.server]
  exact hs

section Lasting

variable {J : Session τ → Prop}

theorem leaves_onServer {a : Action τ α} (h : Step.Leaves a) : Step.Leaves (onServer a) :=
  fun s => by rw [onServer_apply, h]

theorem leaves_call {c : Call τ α} (h : Step.Leaves c) : Step.Leaves (call c) :=
  leaves_onServer fun t => by rw [toAction_snd, h]

theorem Lasting.enduring (L : Lasting J) : Enduring J := fun h _ => L h

theorem Enduring.embedding (E : Enduring J) (f : Context → Action (List EmbeddingRequest) α) :
    Step.Keeps J (embedding f) := fun _ => E ⟨⟨rfl, rfl⟩, id⟩ rfl

theorem Enduring.recordWidth (E : Enduring J) (collection : String) (width : Nat) :
    Step.Keeps J (recordWidth collection width) :=
  fun _ => E ⟨⟨rfl, rfl⟩, fun h => h.record collection width⟩ rfl

theorem Enduring.forgetWidth (E : Enduring J) (collection : String) :
    Step.Keeps J (forgetWidth collection) :=
  fun _ => E ⟨⟨rfl, rfl⟩, fun h => h.forget collection⟩ rfl

theorem Lasting.unlisted (L : Lasting J) : Unlisted J := fun _ _ => L ⟨⟨rfl, rfl⟩, id⟩

theorem Unlisted.dropListings (U : Unlisted J) (collection : String) :
    Step.Keeps J (dropListings collection) := fun _ => U _ _

theorem Unlisted.keepListing (U : Unlisted J) (key : String) (items : List Item) :
    Step.Keeps J (keepListing key items) := fun _ => U _ _

/-- A listing fetched whole is the session's own. -/
theorem Unlisted.materialized (U : Unlisted J) {key : String} {request : PageRequest}
    {fetch : Action (Session τ) (List Item)} (h : Step.Keeps J fetch) :
    Step.Keeps J (materialized key request fetch) := by
  unfold Session.materialized
  refine Step.Keeps.bind (fun _ hs => hs) fun s => ?_
  split
  case' isTrue =>
    refine Step.Keeps.bind h fun items => Step.Keeps.bind (U.keepListing key items) fun _ => ?_
  -- whether the listing was fetched or held, a page is cut from it
  all_goals
    refine Step.Keeps.bind (fun _ hs => hs) fun s => Step.Keeps.bind (fun _ hs => hs) fun page => ?_
    cases page <;> exact fun _ hs => hs

end Lasting

end Keeping

end Session

end VectorBridge
