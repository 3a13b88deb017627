import VectorBridge.Adapter
import VectorBridge.Proofs.Session
/-!
# Loops that read a listing to its end

A collection is read whole in batches, and the ids that a removal by filter is about are
found page by page. Either way a loop asks for the next part and learns from the answer
where to go on, so nothing in the loop itself bounds the number of its rounds: whether it
ends is up to what it is answered.

`Rounds` is such a loop as it is written. A function that satisfies the equation of the
loop is what the loop does, as soon as every round that names another leaves less to be
read; and a walk that gives up after some rounds is the loop when it may make as many as
the loop makes.
-/

namespace VectorBridge

section Loop

variable {ε σ α β : Type} {round : β → ExceptT ε (StateM σ) (List α × Option β)}
variable {place : β} {later : List β} {s : σ} {outcome : Except ε (List α) × σ}

/-- A loop from a place on. A round at a place fails, or reads a part and either is the
last or names the place of the next. Beside the first place stand those of the later
rounds, and with the outcome the state that is left. -/
inductive Rounds (round : β → ExceptT ε (StateM σ) (List α × Option β)) :
    β → List β → σ → Except ε (List α) × σ → Prop where
  | failed {place : β} {s s' : σ} {e : ε} (h : round place s = (.error e, s')) :
      Rounds round place [] s (.error e, s')
  | last {place : β} {s s' : σ} {found : List α} (h : round place s = (.ok (found, none), s')) :
      Rounds round place [] s (.ok found, s')
  | more {place next : β} {later : List β} {s s₁ s' : σ} {found : List α}
      {rest : Except ε (List α)} (h : round place s = (.ok (found, some next), s₁))
      (hrest : Rounds round next later s₁ (rest, s')) :
      Rounds round place (next :: later) s (rest.map (found ++ ·), s')

/-- What is left to do after a round, when `out` is what the loop does from a place on. -/
def goOn (out : β → ExceptT ε (StateM σ) (List α)) :
    List α × Option β → ExceptT ε (StateM σ) (List α)
  | (found, none) => pure found
  | (found, some next) => do
    let rest ← out next
    pure (found ++ rest)

theorem goOn_some_apply (out : β → ExceptT ε (StateM σ) (List α)) (found : List α) (next : β)
    (s : σ) : goOn out (found, some next) s =
      ((out next s).1.map (found ++ ·), (out next s).2) := by
  rw [goOn, Step.bind_apply]
  rcases out next s with ⟨e | rest, s'⟩ <;> rfl

/-- **What satisfies the equation of a loop is what the loop does**, when every round that
names another leaves less to be read. With `n` left there are at most `n` more rounds. -/
theorem exists_rounds {out : β → ExceptT ε (StateM σ) (List α)} {Left : Nat → β → σ → Prop}
    (heq : ∀ {n place s}, Left n place s → out place s = (round place >>= goOn out) s)
    (hless : ∀ {n place s found next s'}, Left n place s →
      round place s = (.ok (found, some next), s') → ∃ m < n, Left m next s')
    {n : Nat} (h : Left n place s) :
    ∃ later, Rounds round place later s (out place s) ∧ later.length ≤ n ∧
      ∀ next ∈ later, ∃ m s', Left m next s' := by
  induction n using Nat.strongRecOn generalizing place s with
  | _ n ih =>
    rw [heq h]
    rcases hround : round place s with ⟨e | ⟨found, _ | next⟩, s₁⟩
    · rw [Step.bind_of_error hround]
      exact ⟨[], .failed hround, Nat.zero_le n, nofun⟩
    · rw [Step.bind_of_ok hround]
      exact ⟨[], .last hround, Nat.zero_le n, nofun⟩
    · obtain ⟨m, hlt, hnext⟩ := hless h hround
      obtain ⟨later, hrest, hlength, hplaces⟩ := ih m hlt hnext
      refine ⟨next :: later, ?_, Nat.succ_le_of_lt (Nat.lt_of_le_of_lt hlength hlt), ?_⟩
      · rw [Step.bind_of_ok hround, goOn_some_apply]
        exact .more hround hrest
      · exact List.forall_mem_cons.2 ⟨⟨m, s₁, hnext⟩, hplaces⟩

/-- A loop that may go on for some rounds only does the same when they are enough. -/
theorem Rounds.eq_of_fuel {run : Nat → β → ExceptT ε (StateM σ) (List α)}
    (hrun : ∀ fuel place s, run (fuel + 1) place s = (round place >>= goOn (run fuel)) s)
    (h : Rounds round place later s outcome) {fuel : Nat} (hfuel : later.length < fuel) :
    run fuel place s = outcome := by
  induction h generalizing fuel with
  | failed h =>
    obtain ⟨fuel, rfl⟩ := Nat.exists_eq_add_one.2 hfuel
    rw [hrun, Step.bind_of_error h]
  | last h =>
    obtain ⟨fuel, rfl⟩ := Nat.exists_eq_add_one.2 hfuel
    rw [hrun, Step.bind_of_ok h]
    rfl
  | more h _ ih =>
    obtain ⟨fuel, rfl⟩ := Nat.exists_eq_add_one.2 (Nat.zero_lt_of_lt hfuel)
    rw [hrun, Step.bind_of_ok h, goOn_some_apply, ih (Nat.lt_of_succ_lt_succ hfuel)]

/-- A loop fails where one of its rounds does, for the same reason. -/
theorem Rounds.exists_of_error (h : Rounds round place later s outcome) {e : ε}
    (he : outcome.1 = .error e) :
    ∃ next ∈ place :: later, ∃ s₁, round next s₁ = (.error e, outcome.2) := by
  induction h with
  | failed h =>
    cases he
    exact ⟨_, List.mem_cons_self, _, h⟩
  | last h => cases he
  | @more place next later s s₁ s' found rest h _ ih =>
    cases rest with
    | ok found => cases he
    | error e' =>
      cases he
      obtain ⟨at', hmem, hfailed⟩ := ih rfl
      exact ⟨at', List.mem_cons_of_mem _ hmem, hfailed⟩

/-- A loop over a part of the state is a loop over the whole, when the rounds it makes act
on the part. -/
theorem Rounds.lift {σ' : Type} (mk : σ → σ') {J : σ → Prop}
    {round' : β → ExceptT ε (StateM σ') (List α × Option β)}
    (h : Rounds round place later s outcome) (hkeeps : ∀ place, Step.Keeps J (round place))
    (hs : J s) (hround : ∀ next ∈ place :: later, ∀ s, J s →
      round' next (mk s) = (round next s).map id mk) :
    Rounds round' place later (mk s) (outcome.map id mk) := by
  induction h with
  | @failed place s s' e h =>
    refine .failed ?_
    rw [hround place List.mem_cons_self s hs, h]
    rfl
  | @last place s s' found h =>
    refine .last ?_
    rw [hround place List.mem_cons_self s hs, h]
    rfl
  | @more place next later s s₁ s' found rest h _ ih =>
    have hs₁ : J s₁ := by
      have hkept := hkeeps place s hs
      rwa [h] at hkept
    refine .more ?_ (ih hs₁ fun at' hmem => hround at' (List.mem_cons_of_mem _ hmem))
    rw [hround place List.mem_cons_self s hs, h]
    rfl

end Loop

/-! ## Walks for ids -/

variable {σ : Type}

/-- A round of a walk for ids: the ids on a page, and the request for the page after it. -/
def Adapter.findPage (readPage : PageRequest → Action σ (Page Item)) (request : PageRequest) :
    Action σ (List String × Option PageRequest) := do
  let page ← readPage request
  pure (page.items.map (·.id), page.next.map fun token => .next token PageRequest.defaultSize)

variable {readPage : PageRequest → Action σ (Page Item)} {request : PageRequest} {s s' : σ}

theorem findPage_of_ok {page : Page Item} (h : readPage request s = (.ok page, s')) :
    Adapter.findPage readPage request s = (.ok (page.items.map (·.id),
      page.next.map fun token => .next token PageRequest.defaultSize), s') := by
  rw [Adapter.findPage, Step.bind_of_ok h]
  rfl

theorem findPage_of_error {e : Error} (h : readPage request s = (.error e, s')) :
    Adapter.findPage readPage request s = (.error e, s') := by
  rw [Adapter.findPage, Step.bind_of_error h]

theorem readPage_of_findPage_error {e : Error}
    (h : Adapter.findPage readPage request s = (.error e, s')) :
    readPage request s = (.error e, s') := by
  rcases hread : readPage request s with ⟨e' | page, s₁⟩
  · rw [findPage_of_error hread] at h
    cases h
    rfl
  · rw [findPage_of_ok hread] at h
    cases h

/-- The pages of a walk have the default size. -/
theorem size_of_rounds {later : List PageRequest} {outcome : Result (List String) × σ}
    (h : Rounds (Adapter.findPage readPage) request later s outcome) :
    ∀ next ∈ later, next.size = PageRequest.defaultSize := by
  induction h with
  | failed h => exact nofun
  | last h => exact nofun
  | @more request next later s s₁ s' found rest h _ ih =>
    refine List.forall_mem_cons.2 ⟨?_, ih⟩
    rcases hread : readPage request s with ⟨e | page, s₂⟩
    · rw [findPage_of_error hread] at h
      cases h
    · rw [findPage_of_ok hread] at h
      obtain ⟨hok, -⟩ := Prod.mk.inj h
      obtain ⟨-, hnext⟩ := Prod.mk.inj (Except.ok.inj hok)
      obtain ⟨token, -, rfl⟩ := Option.map_eq_some_iff.1 hnext
      rfl

/-- A walk through a listing of a part of the state is one through the listing of the whole
that reads its pages off the part. -/
theorem rounds_lift_pages {σ' : Type} (mk : σ → σ') {J : σ → Prop}
    {readPage' : PageRequest → Action σ' (Page Item)} {later : List PageRequest}
    {outcome : Result (List String) × σ}
    (h : Rounds (Adapter.findPage readPage) request later s outcome)
    (hkeeps : ∀ request, Step.Keeps J (readPage request)) (hs : J s)
    (hread : ∀ next ∈ request :: later, ∀ s, J s →
      readPage' next (mk s) = (readPage next s).map id mk) :
    Rounds (Adapter.findPage readPage') request later (mk s) (outcome.map id mk) := by
  refine h.lift mk (fun next => (hkeeps next).bind fun _ => (Step.leaves_pure _).keeps) hs
    fun next hmem s hs => ?_
  rw [Adapter.findPage, Adapter.findPage, Step.bind_apply, Step.bind_apply, hread next hmem s hs]
  rcases readPage next s with ⟨_ | _, s'⟩ <;> rfl

/-- A walk that may read enough pages is the loop. -/
theorem drain_of_rounds {later : List PageRequest} {outcome : Result (List String) × σ}
    (h : Rounds (Adapter.findPage readPage) request later s outcome) {fuel : Nat}
    (hfuel : later.length < fuel) : Adapter.drain readPage fuel request s = outcome := by
  have hrun : ∀ fuel request s, Adapter.drain readPage (fuel + 1) request s =
      (Adapter.findPage readPage request >>= goOn (Adapter.drain readPage fuel)) s := by
    intro fuel request s
    rcases hread : readPage request s with ⟨e | page, s'⟩
    · rw [Step.bind_of_error (findPage_of_error hread), Adapter.drain, Step.bind_of_error hread]
    · rw [Step.bind_of_ok (findPage_of_ok hread), Adapter.drain, Step.bind_of_ok hread]
      cases page.next <;> rfl
  exact h.eq_of_fuel hrun hfuel

/-- The ids that a list has from the offset of a request on. -/
def idsFrom (found : List Item) (after : σ) (request : PageRequest) : Action σ (List String) :=
  fun _ => (request.offset.map fun offset => (found.drop offset).map (·.id), after)

/-- The next page of a walk is cut from a list where `n` entries are left. -/
def CutsNext (readPage : PageRequest → Action σ (Page Item)) (found : List Item) (after : σ)
    (n : Nat) (request : PageRequest) (s : σ) : Prop :=
  ∃ offset page, n = found.length - offset ∧ request.offset = .ok offset ∧
    readPage request s = (.ok page, after) ∧ CutsAt found offset PageRequest.defaultSize page

/-- **A walk over pages that are cut from a list finds the ids of the list**, whatever the
first page does to make the later ones what they are. -/
theorem exists_rounds_cut {found : List Item} {after : σ}
    (hfirst : ∃ page, readPage (.first PageRequest.defaultSize) s = (.ok page, after) ∧
      CutsAt found 0 PageRequest.defaultSize page)
    (hnext : ∀ {token offset}, StartsAt (some token) offset →
      ∃ page, readPage (.next token PageRequest.defaultSize) after = (.ok page, after) ∧
        CutsAt found offset PageRequest.defaultSize page) :
    ∃ later, Rounds (Adapter.findPage readPage) (.first PageRequest.defaultSize) later s
      (.ok (found.map (·.id)), after) ∧ later.length ≤ found.length := by
  have heq : ∀ {n request s}, CutsNext readPage found after n request s →
      idsFrom found after request s =
        (Adapter.findPage readPage request >>= goOn (idsFrom found after)) s := by
    rintro n request s ⟨offset, page, -, hoffset, hread, hcut⟩
    rw [Step.bind_of_ok (findPage_of_ok hread), idsFrom, hoffset]
    cases hmore : page.next with
    | none =>
      rw [← hcut.drop_eq_items hmore]
      rfl
    | some token =>
      obtain ⟨rfl, -⟩ := hcut.more _ hmore
      rw [Option.map_some, goOn_some_apply]
      simp only [Except.map, hcut.drop_eq_append, List.map_append]
      rfl
  have hless : ∀ {n request s ids next s'}, CutsNext readPage found after n request s →
      Adapter.findPage readPage request s = (.ok (ids, some next), s') →
        ∃ m < n, CutsNext readPage found after m next s' := by
    rintro n request s ids next s' ⟨offset, page, rfl, -, hread, hcut⟩ hround
    rw [findPage_of_ok hread] at hround
    cases hmore : page.next with
    | none =>
      rw [hmore] at hround
      cases hround
    | some token =>
      rw [hmore] at hround
      cases hround
      obtain ⟨rfl, hle⟩ := hcut.more _ hmore
      obtain ⟨page', hread', hcut'⟩ := hnext (startsAt_offset (offset + PageRequest.defaultSize))
      have hpos : 0 < PageRequest.defaultSize := by decide
      exact ⟨_, by omega, _, page', rfl, rfl, hread', hcut'⟩
  have hstart : CutsNext readPage found after found.length (.first PageRequest.defaultSize) s := by
    obtain ⟨page, hread, hcut⟩ := hfirst
    exact ⟨0, page, rfl, rfl, hread, hcut⟩
  obtain ⟨later, hrounds, hlength, -⟩ := exists_rounds heq hless hstart
  exact ⟨later, hrounds, hlength⟩

/-- **A walk over a listing that its first page fetches and keeps** finds the ids of what was
fetched. -/
theorem exists_rounds_materialized {τ : Type} {s : Session τ} {key : String} {found : List Item}
    {fetch : Action (Session τ) (List Item)}
    {readPage : PageRequest → Action (Session τ) (Page Item)}
    (hpage : ∀ {request : PageRequest} {s₁ : Session τ}, s₁.server = s.server →
      s₁.connected = s.connected → 0 < request.size →
        readPage request s₁ = Session.materialized key request fetch s₁)
    (hfetch : fetch s = (.ok found, s)) :
    ∃ later, Rounds (Adapter.findPage readPage) (.first PageRequest.defaultSize) later s
      (.ok (found.map (·.id)), { s with listings := Keyed.insert key found s.listings }) ∧
        later.length ≤ found.length := by
  have hpos : 0 < PageRequest.defaultSize := by decide
  have hfirst : readPage (.first PageRequest.defaultSize) s = _ :=
    (hpage rfl rfl hpos).trans (Session.materialized_first hpos hfetch)
  refine exists_rounds_cut ⟨_, hfirst, cutsAt_slice found⟩ fun {token offset} htoken => ?_
  have hkept := Keyed.get?_insert_self key found s.listings
  exact ⟨_, Eq.trans (hpage rfl rfl hpos) (Session.materialized_next (htoken _) hpos hkept),
    cutsAt_slice found⟩

end VectorBridge
