import VectorBridge.Proofs.Columnar.Tracking
/-!
# Listings of a tracked archive

A first page fetches the items that pass and holds them, and a later page is
cut from what is held. So a walk from the first page on sees the items that pass
as they are now, and answers what the archive answers. A page at a token that
comes from elsewhere is cut from what is held under its key, and that are the
items of the collection as it is now, under a filter that is written the same.
-/

namespace VectorBridge

namespace Columnar

open Session

variable {s s' : Session Memory} {a : Archive} {name : String} {r : Roster}
variable {filter : Option Filter}

/-! ## Fetching and cutting -/

/-- The items of a table that the client lets pass. -/
def passing (name : String) (filter : Option Filter) : Action (Session Memory) (List Item) := do
  pure ((⟨none, filter.getD .empty⟩ : CompiledFilter Unit).postFilter
    (← call (Store.read name)).items)

theorem passing_of_some (h : Tracks s a) (hr : a.rosters[name]? = some r)
    (filter : Option Filter) : passing name filter s = (.ok (r.matching filter), s) := by
  rw [passing, Step.bind_of_ok (read_of_some h hr),
    postFilter_items (h.represents.sound name r hr)]
  rfl

/-- A session that has fetched a listing. -/
def fetched (s : Session Memory) (name : String) (filter : Option Filter) (r : Roster) :
    Session Memory :=
  { s with listings := Keyed.insert (listingKey name filter) (r.matching filter) s.listings }

theorem Tracks.keep (h : Tracks s a) (hr : a.rosters[name]? = some r)
    (filter : Option Filter) : Tracks (fetched s name filter r) a :=
  ⟨h.context, h.connected, h.asked, h.represents, h.widths, h.listings.keep hr filter⟩

/-- Nothing is fetched of a collection that is not there. -/
theorem materialized_missing (h : Tracks s a) (hr : a.rosters[name]? = none)
    {request : PageRequest}
    (hnew : request.token = none ∨ Keyed.get? (listingKey name filter) s.listings = none) :
    materialized (listingKey name filter) request (passing name filter) s =
      (.error (.notFound s!"table '{name}'"), s) := by
  refine materialized_failed hnew ?_
  rw [passing, Step.bind_of_error (read_of_none h hr)]

/-- What is held under a key are items of the collection as it is now. -/
theorem Tracks.held (h : Tracks s a) {found : List Item}
    (hheld : Keyed.get? (listingKey name filter) s.listings = some found) :
    ∃ filter', ∃ r : Roster, filter'.map (·.toJson.text) = filter.map (·.toJson.text) ∧
      a.rosters[name]? = some r ∧ found = r.matching filter' := by
  obtain ⟨name', filter', r, hkey, hr, rfl⟩ := h.listings _ found hheld
  obtain ⟨rfl, htext⟩ := listingKey_inj hkey
  exact ⟨filter', r, htext, hr, rfl⟩

/-- Whatever is held, a page is cut from items of the collection as it is now, unless
the collection is missing. -/
theorem materialized_cases (h : Tracks s a) (name : String) (filter : Option Filter)
    {request : PageRequest} (hsize : 0 < request.size) :
    (∃ e, materialized (listingKey name filter) request (passing name filter) s = (.error e, s)) ∨
      ∃ filter' s', ∃ r : Roster, filter'.map (·.toJson.text) = filter.map (·.toJson.text) ∧
        a.rosters[name]? = some r ∧ Tracks s' a ∧
        materialized (listingKey name filter) request (passing name filter) s =
          (request.offset.map fun offset => Page.slice (r.matching filter') offset request.size,
            s') := by
  by_cases hnew : request.token = none ∨ Keyed.get? (listingKey name filter) s.listings = none
  · cases hr : a.rosters[name]? with
    | none => exact .inl ⟨_, materialized_missing h hr hnew⟩
    | some r =>
      exact .inr ⟨filter, _, r, rfl, rfl, h.keep hr filter,
        materialized_fetched hnew hsize (passing_of_some h hr filter)⟩
  · rw [not_or] at hnew
    obtain ⟨found, hheld⟩ := Option.ne_none_iff_exists'.1 hnew.2
    obtain ⟨filter', r, htext, hr, rfl⟩ := h.held hheld
    exact .inr ⟨filter', s, r, htext, hr, h,
      materialized_held (Option.isSome_iff_ne_none.2 hnew.1) hsize hheld⟩

/-! ## Any page -/

/-- A page that is cut is cut at the offset of its request. -/
theorem exists_offset {request : PageRequest} {found : List Item} {page : Page Item}
    (hcut : (request.offset.map fun offset => Page.slice found offset request.size, s) =
      (.ok page, s')) :
    ∃ offset, request.offset = .ok offset ∧ page = Page.slice found offset request.size ∧
      s' = s := by
  cases ho : request.offset with
  | error e =>
    rw [ho] at hcut
    cases hcut
  | ok offset =>
    rw [ho] at hcut
    cases hcut
    exact ⟨offset, rfl, rfl, rfl⟩

/-- With a connection, a size and a valid filter a listing cuts its page. -/
theorem listItems_eq_materialized (hconn : s.connected = true) {request : PageRequest}
    (hsize : 0 < request.size) (hcheck : checkFilter filter = .ok ()) :
    listItems name request filter s =
      materialized (listingKey name filter) request (passing name filter) s := by
  rw [listItems, ensureConnected_bind hconn, PageRequest.validate_eq_ok_iff.2 hsize,
    Step.bind_of_ok (Action.ofResult_apply _ s), compile?_eq, hcheck]
  rfl

/-- And it is refused without one of them. -/
theorem listItems_cases (name : String) (request : PageRequest) (filter : Option Filter)
    (s : Session Memory) :
    (∃ e, listItems name request filter s = (.error e, s)) ∨
      s.connected = true ∧ 0 < request.size ∧ checkFilter filter = .ok () := by
  by_cases hconn : s.connected = true
  · rw [listItems, ensureConnected_bind hconn]
    cases hsize : request.validate with
    | error e => exact .inl ⟨e, rfl⟩
    | ok u =>
      rw [Step.bind_of_ok (Action.ofResult_apply _ s), compile?_eq]
      cases hcheck : checkFilter filter with
      | error e => exact .inl ⟨e, rfl⟩
      | ok u => exact .inr ⟨hconn, PageRequest.validate_eq_ok_iff.1 hsize, rfl⟩
  · exact .inl ⟨_, ensureConnected_bind_of_not hconn _⟩

/-- So a page is one that is cut. -/
theorem materialized_of_listItems {request : PageRequest} {page : Page Item}
    (hlist : listItems name request filter s = (.ok page, s')) :
    s.connected = true ∧ 0 < request.size ∧ checkFilter filter = .ok () ∧
      materialized (listingKey name filter) request (passing name filter) s = (.ok page, s') := by
  rcases listItems_cases name request filter s with ⟨e, hrefused⟩ | ⟨hconn, hsize, hcheck⟩
  · rw [hrefused] at hlist
    cases hlist
  · rw [listItems_eq_materialized hconn hsize hcheck] at hlist
    exact ⟨hconn, hsize, hcheck, hlist⟩

/-- Whatever page is asked for, the session goes on tracking the archive. -/
theorem listItems_tracks (h : Tracks s a) (name : String) (request : PageRequest)
    (filter : Option Filter) : Tracks (listItems name request filter s).2 a := by
  rcases listItems_cases name request filter s with ⟨e, hlist⟩ | ⟨hconn, hsize, hcheck⟩
  · rw [hlist]
    exact h
  · rw [listItems_eq_materialized hconn hsize hcheck]
    rcases materialized_cases h name filter hsize with
      ⟨e, hcut⟩ | ⟨_, s', _, -, -, h', hcut⟩
    · rw [hcut]
      exact h
    · rw [hcut]
      exact h'

/-- **Any page is cut from items of the collection as it is now**, under a filter
that is written the same. -/
theorem page_of_listItems (h : Tracks s a) {request : PageRequest} {page : Page Item}
    (hlist : listItems name request filter s = (.ok page, s')) :
    ∃ filter' offset, ∃ r : Roster, filter'.map (·.toJson.text) = filter.map (·.toJson.text) ∧
      a.rosters[name]? = some r ∧ request.offset = .ok offset ∧
      page = Page.slice (r.matching filter') offset request.size := by
  obtain ⟨-, hsize, -, hlist⟩ := materialized_of_listItems hlist
  rcases materialized_cases h name filter hsize with
    ⟨e, hcut⟩ | ⟨filter', s₁, r, htext, hr, -, hcut⟩
  · rw [hcut] at hlist
    cases hlist
  · rw [hcut] at hlist
    obtain ⟨offset, ho, rfl, -⟩ := exists_offset hlist
    exact ⟨filter', offset, r, htext, hr, ho, rfl⟩

/-! ## Pages one after the other -/

/-- A session in the middle of a listing: the items that pass are held. -/
structure Reading (a : Archive) (name : String) (filter : Option Filter) (r : Roster)
    (s : Session Memory) : Prop where
  tracks : Tracks s a
  connected : s.connected = true
  roster : a.rosters[name]? = some r
  valid : checkFilter filter = .ok ()
  held : Keyed.get? (listingKey name filter) s.listings = some (r.matching filter)

/-- A listing that may be begun is begun. -/
theorem Tracks.begun (h : Tracks s a) (hconn : s.connected = true) (hr : a.rosters[name]? = some r)
    (hcheck : checkFilter filter = .ok ()) : Reading a name filter r (fetched s name filter r) :=
  ⟨h.keep hr filter, hconn, hr, hcheck, Keyed.get?_insert_self _ _ _⟩

theorem listItems_first (h : Tracks s a) (hconn : s.connected = true)
    (hr : a.rosters[name]? = some r) (hcheck : checkFilter filter = .ok ()) {size : Nat}
    (hsize : 0 < size) :
    listItems name ⟨none, size⟩ filter s =
      (.ok (Page.slice (r.matching filter) 0 size), fetched s name filter r) := by
  rw [listItems_eq_materialized hconn hsize hcheck]
  exact materialized_first hsize (passing_of_some h hr filter)

/-- A later page is cut from what is held. -/
theorem Reading.listItems_next (hs : Reading a name filter r s) (token : PageToken) {size : Nat}
    (hsize : 0 < size) :
    listItems name ⟨some token, size⟩ filter s =
      ((PageRequest.mk (some token) size).offset.map fun offset =>
        Page.slice (r.matching filter) offset size, s) := by
  rw [listItems_eq_materialized hs.connected hsize hs.valid]
  exact materialized_held rfl hsize hs.held

/-- **The pages of a walk are cut from the items that pass**, the first one as well
as those that follow it. -/
theorem reading_of_listItems (h : Tracks s a) {request : PageRequest} {page : Page Item}
    (hwalk : request.token = none ∨ ∃ r, Reading a name filter r s)
    (hlist : listItems name request filter s = (.ok page, s')) :
    ∃ r offset, Reading a name filter r s' ∧ request.offset = .ok offset ∧ 0 < request.size ∧
      page = Page.slice (r.matching filter) offset request.size := by
  obtain ⟨hconn, hsize, hcheck, hcut⟩ := materialized_of_listItems hlist
  obtain ⟨_ | token, size⟩ := request
  · cases hr : a.rosters[name]? with
    | none =>
      rw [materialized_missing h hr (.inl rfl)] at hcut
      cases hcut
    | some r =>
      rw [listItems_first h hconn hr hcheck hsize] at hlist
      cases hlist
      exact ⟨r, 0, h.begun hconn hr hcheck, rfl, hsize, rfl⟩
  · obtain ⟨r, hs⟩ := hwalk.resolve_left (Option.some_ne_none token)
    rw [hs.listItems_next token hsize] at hlist
    obtain ⟨offset, ho, rfl, rfl⟩ := exists_offset hlist
    exact ⟨r, offset, hs, ho, hsize, rfl⟩

/-- **Reading a listing to its end shows the items that pass**, whatever sizes the
pages have. -/
theorem drains_eq_matching (h : Tracks s a) {sizes : List Nat} {items : List Item}
    (hdrain : Drains (listItems name · filter) none sizes s items s') :
    ∃ r : Roster, a.rosters[name]? = some r ∧ items = r.matching filter := by
  obtain ⟨size, page, s₁, hfirst⟩ := hdrain.first
  obtain ⟨r, -, hs, -⟩ := reading_of_listItems h (.inl rfl) hfirst
  refine ⟨r, hs.roster, (hdrain.eq_found (P := Reading a name filter r) (fun hlist => ?_)
    fun hs htoken hlist => ?_).1⟩
  · obtain ⟨r', offset, hs', ho, -, rfl⟩ := reading_of_listItems h (.inl rfl) hlist
    obtain rfl : r' = r := Option.some.inj (hs'.roster.symm.trans hs.roster)
    cases ho
    exact ⟨hs', cutsAt_slice _⟩
  · obtain ⟨r', offset, hs', ho, -, rfl⟩ := reading_of_listItems hs.tracks (.inr ⟨r, hs⟩) hlist
    obtain rfl : r' = r := Option.some.inj (hs'.roster.symm.trans hs.roster)
    cases ho.symm.trans (htoken _)
    exact ⟨hs', cutsAt_slice _⟩

/-- And the end is reached. -/
theorem exists_drains_matching (h : Tracks s a) (hconn : s.connected = true)
    (hr : a.rosters[name]? = some r) (hcheck : checkFilter filter = .ok ()) {size : Nat → Nat}
    (hsize : ∀ i, 0 < size i) :
    ∃ n s', Drains (listItems name · filter) none ((List.range n).map size) s
      (r.matching filter) s' := by
  have hs := h.begun hconn hr hcheck
  have hnext : ∀ {token : PageToken} {offset size : Nat}, StartsAt (some token) offset → 0 < size →
      ∃ page, listItems name ⟨some token, size⟩ filter (fetched s name filter r) =
        (.ok page, fetched s name filter r) ∧ CutsAt (r.matching filter) offset size page := by
    intro token offset size htoken hpos
    have hpage := hs.listItems_next token hpos
    rw [htoken size] at hpage
    exact ⟨_, hpage, cutsAt_slice _⟩
  have hdrains : ∃ n, Drains (listItems name · filter) none ((List.range n).map size) s
      (r.matching filter) (fetched s name filter r) :=
    exists_drains (fun hpos => ⟨_, listItems_first h hconn hr hcheck hpos, cutsAt_slice _⟩)
      hnext hsize
  obtain ⟨n, hdrain⟩ := hdrains
  exact ⟨n, _, hdrain⟩

/-! ## What the archive answers -/

/-- The archive only looks at what it lists. -/
theorem leaves_archive_listItems (name : String) (request : PageRequest)
    (filter : Option Filter) : Step.Leaves (Archive.listItems name request filter) :=
  leaves_archive_connected.bind fun _ => Step.Leaves.bind (fun _ => rfl) fun _ =>
    Step.Leaves.bind (fun _ => rfl) fun _ => (leaves_archive_roster name).bind fun _ =>
      Step.Leaves.bind (fun _ => rfl) fun _ => Step.leaves_pure _

/-- What is held under a key, if anything, are the items that pass. -/
def Current (a : Archive) (name : String) (filter : Option Filter) (s : Session Memory) : Prop :=
  ∀ found, Keyed.get? (listingKey name filter) s.listings = some found →
    ∃ r : Roster, a.rosters[name]? = some r ∧ found = r.matching filter

theorem Reading.current (hs : Reading a name filter r s) : Current a name filter s := by
  intro found hheld
  exact ⟨r, hs.roster, (Option.some.inj (hs.held.symm.trans hheld)).symm⟩

/-- No filter is written as no filter only. -/
theorem Tracks.current_none (h : Tracks s a) (name : String) : Current a name none s := by
  intro found hheld
  obtain ⟨filter', r, htext, hr, rfl⟩ := h.held hheld
  cases filter' with
  | none => exact ⟨r, hr, rfl⟩
  | some f => cases htext

/-- **A listing answers what the archive answers** for a first page, and for any page
while nothing else is held under its key. -/
theorem listItems_alike (h : Tracks s a) (name : String) (filter : Option Filter)
    {request : PageRequest} (hcurrent : request.token = none ∨ Current a name filter s) :
    Step.Alike Tracks (listItems name request filter s)
      (Archive.listItems name request filter a) := by
  refine alike_connected h fun _ => alike_check h fun _ hvalid => alike_compiling h fun _ => ?_
  have hsize := PageRequest.validate_eq_ok_iff.1 hvalid
  show Step.Alike Tracks (materialized (listingKey name filter) request (passing name filter) s) _
  cases hr : a.rosters[name]? with
  | none =>
    have hnew : request.token = none ∨ Keyed.get? (listingKey name filter) s.listings = none := by
      refine hcurrent.imp_right fun hcurrent => Option.eq_none_iff_forall_not_mem.2 ?_
      intro found hheld
      obtain ⟨r, hr', -⟩ := hcurrent found hheld
      rw [hr] at hr'
      cases hr'
    rw [materialized_missing h hr hnew, Step.bind_of_error (roster_of_none hr)]
    exact ⟨rfl, h⟩
  | some r =>
    have hcut : ((do
        let offset ← Action.ofResult request.offset
        pure (Page.slice (r.matching filter) offset request.size) : Action Archive (Page Item)) a) =
        (request.offset.map fun offset => Page.slice (r.matching filter) offset request.size,
          a) := by
      cases request.offset <;> rfl
    rw [Step.bind_of_ok (roster_of_some hr), hcut]
    by_cases hnew : request.token = none ∨ Keyed.get? (listingKey name filter) s.listings = none
    · rw [materialized_fetched hnew hsize (passing_of_some h hr filter)]
      exact ⟨rfl, h.keep hr filter⟩
    · rw [not_or] at hnew
      obtain ⟨found, hheld⟩ := Option.ne_none_iff_exists'.1 hnew.2
      obtain ⟨r', hr', rfl⟩ := hcurrent.resolve_left hnew.1 found hheld
      obtain rfl : r' = r := Option.some.inj (hr'.symm.trans hr)
      rw [materialized_held (Option.isSome_iff_ne_none.2 hnew.1) hsize hheld]
      exact ⟨rfl, h⟩

/-- **A walk answers what the archive answers.** -/
theorem pagesFrom_alike (h : Tracks s a) (name : String) (filter : Option Filter) (fuel : Nat)
    {request : PageRequest} (hwalk : request.token = none ∨ ∃ r, Reading a name filter r s) :
    Step.Alike Tracks ((adapter (τ := Memory)).pagesFrom name filter fuel request s)
      (Archive.adapter.pagesFrom name filter fuel request a) := by
  -- on the pages; after each of them the listing is held
  induction fuel generalizing s request with
  | zero => exact alike_pure h []
  | succ fuel ih =>
    have hcurrent := hwalk.imp_right fun ⟨_, hs⟩ => hs.current
    refine Step.Alike.bind (listItems_alike h name filter hcurrent)
      fun page s' a' hpage hpage' h' => ?_
    have hleft := leaves_archive_listItems name request filter a
    obtain rfl : a' = a := (congrArg Prod.snd hpage').symm.trans hleft
    obtain ⟨r, -, hs, -⟩ := reading_of_listItems h hwalk hpage
    cases page.next with
    | none => exact alike_pure h' [page]
    | some token =>
      exact (ih h' (.inr ⟨r, hs⟩)).then_pure (page :: ·)

end Columnar

end VectorBridge
