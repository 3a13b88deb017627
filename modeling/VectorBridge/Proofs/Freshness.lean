import VectorBridge.Proofs.Json.Injective
/-!
# Listings that are not stale

A listing is fetched once and cut into pages later, while the server goes on to change. It is
fresh as long as fetching it anew would give the same. A session is up to date when all that
it holds is fresh, and three things keep it so: a change of the server that shows in no
listing, a change of one collection after which the listings of that collection are dropped,
and a listing that is fetched and held.

What fetching a listing gives is `finds`, a relation between the state of the server, a
collection, a filter and a list; how it is done is left to those who fetch.
-/

namespace VectorBridge

namespace Session

variable {τ α : Type} {finds : τ → String → Option Filter → List Item → Prop} {s s' : Session τ}
variable {name : String} {filter : Option Filter} {found : List Item} {t t' : τ}

/-- Every listing that is held is one that fetching it anew would give. -/
def UpToDate (finds : τ → String → Option Filter → List Item → Prop) (s : Session τ) : Prop :=
  ∀ key found, Keyed.get? key s.listings = some found →
    ∃ name filter, listingKey name filter = key ∧ finds s.server name filter found

/-- What is found of some collections on one server is found on another. -/
def Finds.Preserved (finds : τ → String → Option Filter → List Item → Prop) (p : String → Prop)
    (t t' : τ) : Prop :=
  ∀ name, p name → ∀ filter found, finds t name filter found → finds t' name filter found

theorem upToDate_of_nil (h : s.listings = []) : s.UpToDate finds := by
  intro key found hget
  rw [h] at hget
  cases hget

namespace UpToDate

/-- The server may change where no listing shows it. -/
theorem of_preserved (h : s.UpToDate finds)
    (hfinds : Finds.Preserved finds (fun _ => True) s.server s'.server)
    (hlistings : s'.listings = s.listings) : s'.UpToDate finds := by
  intro key found hget
  rw [hlistings] at hget
  obtain ⟨name, filter, rfl, hfound⟩ := h key found hget
  exact ⟨name, filter, rfl, hfinds name trivial filter found hfound⟩

theorem of_eq (h : s.UpToDate finds) (hserver : s'.server = s.server)
    (hlistings : s'.listings = s.listings) : s'.UpToDate finds :=
  h.of_preserved (fun _ _ _ _ hfound => by rw [hserver]; exact hfound) hlistings

/-- **A collection may change when its listings are dropped.** -/
theorem of_invalidate (h : s.UpToDate finds)
    (hfinds : Finds.Preserved finds (· ≠ name) s.server s'.server)
    (hlistings : s'.listings = s.listings.invalidate (Listings.keyStart name)) :
    s'.UpToDate finds := by
  intro key found hget
  rw [hlistings, Listings.invalidate,
    Keyed.get?_filter_key fun key => !Text.startsWith key (Listings.keyStart name)] at hget
  split at hget
  · rename_i hleft
    obtain ⟨other, filter, rfl, hfound⟩ := h key found hget
    have hne : other ≠ name := by
      rintro rfl
      rw [startsWith_listingKey] at hleft
      cases hleft
    exact ⟨other, filter, rfl, hfinds other hne filter found hfound⟩
  · cases hget

/-- What was found may be held. -/
theorem keep (h : s.UpToDate finds) (hfound : finds s.server name filter found) :
    UpToDate finds
      { s with listings := Keyed.insert (listingKey name filter) found s.listings } :=
  Keyed.forall_insert h ⟨name, filter, rfl, hfound⟩

end UpToDate

/-- What becomes of a page of a listing: it is not to be had, or it is cut from what is held
then, be it fetched or held before. -/
theorem materialized_cases {key : String} {request : PageRequest}
    {fetch : Action (Session τ) (List Item)} (hsize : 0 < request.size)
    (hleaves : Step.Leaves fetch) :
    (∃ e, materialized key request fetch s = (.error e, s)) ∨
      ∃ found s', materialized key request fetch s =
          (request.offset.map fun offset => Page.slice found offset request.size, s') ∧
        Keyed.get? key s'.listings = some found ∧
        (s' = s ∨ fetch s = (.ok found, s) ∧
          s' = { s with listings := Keyed.insert key found s.listings }) := by
  by_cases hnew : request.token = none ∨ Keyed.get? key s.listings = none
  · have hleft := hleaves s
    rcases hfetch : fetch s with ⟨e | found, s₁⟩
    all_goals
      rw [hfetch] at hleft
      obtain rfl : s₁ = s := hleft
    · exact .inl ⟨e, materialized_failed hnew hfetch⟩
    · exact .inr ⟨found, _, materialized_fetched hnew hsize hfetch, Keyed.get?_insert_self _ _ _,
        .inr ⟨rfl, rfl⟩⟩
  · rw [not_or] at hnew
    obtain ⟨found, hheld⟩ := Option.ne_none_iff_exists'.1 hnew.2
    exact .inr ⟨found, s, materialized_held (Option.isSome_iff_ne_none.2 hnew.1) hsize hheld, hheld,
      .inl rfl⟩

/-- **A page of a listing keeps a session up to date**, whether it is fetched, cut from what
is held, or not to be had. -/
theorem UpToDate.materialized (h : s.UpToDate finds) {request : PageRequest}
    {fetch : Action (Session τ) (List Item)} (hsize : 0 < request.size)
    (hleaves : Step.Leaves fetch)
    (hfetch : ∀ found, fetch s = (.ok found, s) → finds s.server name filter found) :
    UpToDate finds (Session.materialized (listingKey name filter) request fetch s).2 := by
  rcases materialized_cases hsize hleaves with ⟨e, hrun⟩ | ⟨found, s', hrun, -, hs'⟩
  · rw [hrun]
    exact h
  · rw [hrun]
    rcases hs' with rfl | ⟨hfound, rfl⟩
    · exact h
    · exact h.keep (hfetch found hfound)

/-- A key tells the collection and the filter, so what is held under it is found for them. -/
theorem UpToDate.finds_of_held (h : s.UpToDate finds)
    (hheld : Keyed.get? (listingKey name filter) s.listings = some found) :
    finds s.server name filter found := by
  obtain ⟨name', filter', hkey, hfound⟩ := h _ _ hheld
  obtain ⟨rfl, rfl⟩ := listingKey_injective hkey
  exact hfound

/-- **A page of a listing is cut from what is found when the page is asked for**, also a later
page of what was fetched long before. -/
theorem UpToDate.page_of_materialized (h : s.UpToDate finds) {request : PageRequest}
    {fetch : Action (Session τ) (List Item)} {page : Page Item} (hsize : 0 < request.size)
    (hleaves : Step.Leaves fetch)
    (hfetch : ∀ found, fetch s = (.ok found, s) → finds s.server name filter found)
    (hpage : Session.materialized (listingKey name filter) request fetch s = (.ok page, s')) :
    ∃ found offset, finds s.server name filter found ∧
      page = Page.slice found offset request.size := by
  rcases materialized_cases hsize hleaves with ⟨e, hrun⟩ | ⟨found, s₁, hrun, hheld, hs₁⟩
  · rw [hrun] at hpage
    cases hpage
  · rw [hrun] at hpage
    obtain ⟨hcut, rfl⟩ := Prod.mk.inj hpage
    have hfound : finds s.server name filter found := by
      rcases hs₁ with rfl | ⟨hran, -⟩
      · exact h.finds_of_held hheld
      · exact hfetch found hran
    cases ho : request.offset with
    | error e =>
      rw [ho] at hcut
      cases hcut
    | ok offset =>
      rw [ho] at hcut
      exact ⟨found, offset, hfound, (Except.ok.inj hcut).symm⟩

/-- **A change of one collection that is followed by dropping its listings** keeps a session
up to date, also when it fails and has changed nothing. -/
theorem UpToDate.of_change (h : s.UpToDate finds) {a : Action τ Unit}
    {rest : Unit → Action (Session τ) α}
    (hfailed : ∀ e t, a s.server = (.error e, t) → t = s.server)
    (hok : ∀ t, a s.server = (.ok (), t) → Finds.Preserved finds (· ≠ name) s.server t)
    (hrest : ∀ s, ((rest () s).2.server = s.server) ∧
      (rest () s).2.listings = s.listings.invalidate (Listings.keyStart name)) :
    UpToDate finds ((onServer a >>= rest) s).2 := by
  refine Step.bind_cases (P := fun r => UpToDate finds r.2) (fun e s₁ hrun => ?_)
    fun _ s₁ hrun => ?_
  all_goals
    rw [onServer_apply] at hrun
    obtain ⟨hresult, rfl⟩ := Prod.mk.inj hrun
  · exact h.of_eq (hfailed e _ (Prod.ext hresult rfl)) rfl
  · obtain ⟨hserver, hlistings⟩ := hrest { s with server := (a s.server).2 }
    refine h.of_invalidate ?_ hlistings
    rw [hserver]
    exact hok _ (Prod.ext hresult rfl)

theorem enduring_upToDate : Enduring fun s : Session τ => s.UpToDate finds :=
  fun h hlistings hs => hs.of_eq h.server hlistings

end Session

end VectorBridge
