import VectorBridge.Proofs.Columnar.Listing
import VectorBridge.Proofs.Columnar.Writing
import VectorBridge.Proofs.Ranking
/-!
# The columnar adapter is an archive

Every call of a session that tracks an archive leaves the session tracking what
the archive becomes, and answers what the archive answers unless it goes on with
a listing under a filter. The run statement is an induction over the calls. As
the items of an archive fit their rosters, the sentinel is in no answer, and
what would write it is refused.
-/

namespace VectorBridge

/-- Whether a call is other than one that goes on with a listing under a filter. -/
def AdapterCall.startsAfresh : AdapterCall → Bool
  | .listItems _ request filter => request.token.isNone || filter.isNone
  | _ => true

/-- The ids of the items that an answer shows. -/
def AdapterAnswer.ids : AdapterAnswer → List String
  | .items l => l.map (·.id)
  | .page p => p.items.map (·.id)
  | .pages l => l.flatMap fun p => p.items.map (·.id)
  | .results l => l.flatMap (·.ids)
  | _ => []

namespace Columnar

open Session

variable {s s' : Session Memory} {a : Archive} {name : String}

/-! ## Call by call -/

theorem connect_alike (h : Tracks s a) :
    Step.Alike Tracks ((adapter (τ := Memory)).connect s) (Archive.adapter.connect a) := by
  have htables : call (Store.tables (τ := Memory)) s = (.ok (Keyed.keys s.server.tables), s) :=
    call_of_ok rfl
  show Step.Alike Tracks ((call (Store.tables (τ := Memory)) >>= fun _ => markConnected) s) _
  rw [Step.bind_of_ok htables]
  exact ⟨rfl, h.context, rfl, h.asked, h.represents, h.widths, h.listings⟩

/-- No listing is held after the connection has ended. -/
theorem disconnect_alike (h : Tracks s a) :
    Step.Alike Tracks ((adapter (τ := Memory)).disconnect s) (Archive.adapter.disconnect a) :=
  ⟨rfl, h.context, rfl, h.asked, h.represents, h.widths, fun _ _ hheld => by cases hheld⟩

theorem embeddingModel_alike (h : Tracks s a) (name : String) :
    Step.Alike Tracks ((adapter (τ := Memory)).embeddingModel name s)
      (Archive.adapter.embeddingModel name a) := by
  have hcontext : ∀ {s' : Session Memory} {a' : Archive}, Tracks s' a' →
      (adapter (τ := Memory)).context s' = Archive.adapter.context a' := fun h' => h'.context
  refine Step.Alike.bind (alike_pure h none) fun metadata s₁ a₁ _ _ h₁ => ?_
  rw [Step.bind_of_ok (Step.get_apply s₁), Step.bind_of_ok (Step.get_apply a₁), hcontext h₁]
  -- without a hint for the collection, the first item on its first page is asked
  cases (Archive.adapter.context a₁).modelHint name metadata none with
  | some model => exact alike_pure h₁ (some model)
  | none =>
    refine Step.Alike.bind (listItems_alike h₁ name none (.inl rfl)) fun sample s₂ a₂ _ _ h₂ => ?_
    rw [Step.bind_of_ok (Step.get_apply s₂), Step.bind_of_ok (Step.get_apply a₂), hcontext h₂]
    exact alike_pure h₂ _

/-- **A call answers what the archive answers**, unless it goes on with a listing
under a filter. -/
theorem perform_alike (h : Tracks s a) {call : AdapterCall} (hcall : call.startsAfresh = true) :
    Step.Alike Tracks ((adapter (τ := Memory)).perform call s)
      (Archive.adapter.perform call a) := by
  cases call with
  | connect => exact (connect_alike h).then_pure fun _ => AdapterAnswer.done
  | disconnect => exact (disconnect_alike h).then_pure fun _ => AdapterAnswer.done
  | isConnected =>
    exact ⟨congrArg (fun c => Except.ok (AdapterAnswer.connection c .columnar)) h.connected, h⟩
  | listCollections => exact (listCollections_alike h).then_pure AdapterAnswer.names
  | createCollection name width metric =>
    exact (createCollection_alike h name width metric).then_pure fun _ => AdapterAnswer.done
  | describe name => exact (describe_alike h name).then_pure AdapterAnswer.collection
  | addItems name items => exact (addItems_alike h name items).then_pure fun _ => AdapterAnswer.done
  | getItems name ids => exact (getItems_alike h name ids).then_pure AdapterAnswer.items
  | listItems name request filter =>
    have hcurrent : request.token = none ∨ Current a name filter s := by
      rcases Bool.or_eq_true_iff.1 hcall with hfirst | hnone
      · exact .inl (Option.isNone_iff_eq_none.1 hfirst)
      · obtain rfl := Option.isNone_iff_eq_none.1 hnone
        exact .inr (h.current_none name)
    exact (listItems_alike h name filter hcurrent).then_pure AdapterAnswer.page
  | walk name size filter =>
    exact (pagesFrom_alike h name filter Adapter.maxPages (.inl rfl)).then_pure AdapterAnswer.pages
  | updateItems name updates =>
    exact (updateItems_alike h name updates).then_pure fun _ => AdapterAnswer.done
  | deleteItems name ids filter =>
    exact (deleteItems_alike h name ids filter).then_pure fun _ => AdapterAnswer.done
  | dropCollection name => exact (dropCollection_alike h name).then_pure fun _ => AdapterAnswer.done
  | countItems name => exact (countItems_alike h name).then_pure AdapterAnswer.count
  | search name query => exact (search_alike h name query).then_pure AdapterAnswer.results
  | embeddingModel name => exact (embeddingModel_alike h name).then_pure AdapterAnswer.text
  | metadata name => exact alike_pure h (AdapterAnswer.metadata none)
  | capabilities => exact alike_pure h _
  | profileName =>
    exact ⟨congrArg (fun c : Context => Except.ok (AdapterAnswer.text c.profileName)) h.context, h⟩

/-- And whatever is called, the session goes on tracking. -/
theorem perform_tracks (h : Tracks s a) (call : AdapterCall) :
    Tracks ((adapter (τ := Memory)).perform call s).2 (Archive.adapter.perform call a).2 := by
  cases hcall : call.startsAfresh with
  | true => exact (perform_alike h hcall).2
  | false =>
    cases call with
    | listItems name request filter =>
      have hsession : ((adapter (τ := Memory)).perform (.listItems name request filter) s).2 =
          (listItems name request filter s).2 := Step.snd_then_pure _ AdapterAnswer.page s
      have harchive : (Archive.adapter.perform (.listItems name request filter) a).2 = a :=
        (Step.snd_then_pure _ AdapterAnswer.page a).trans
          (leaves_archive_listItems name request filter a)
      rw [hsession, harchive]
      exact listItems_tracks h name request filter
    | _ => cases hcall

/-- The calls of a history one by one. -/
theorem run_tracks (h : Tracks s a) (calls : List AdapterCall) :
    Tracks ((adapter (τ := Memory)).run calls s).2 (Archive.adapter.run calls a).2 := by
  induction calls generalizing s a with
  | nil => exact h
  | cons call calls ih => exact ih (perform_tracks h call)

/-! ## What is shown and what is refused -/

/-- A table that is read is that of a roster whose items fit. -/
theorem read_eq_ok (h : Tracks s a) {t : Table} (hread : call (Store.read name) s = (.ok t, s')) :
    s' = s ∧ ∃ r : Roster, a.rosters[name]? = some r ∧ r.Sound ∧ t = r.table := by
  obtain ⟨ht, rfl⟩ := call_read_eq_ok_iff.1 hread
  exact ⟨rfl, h.represents.exists_roster ht⟩

theorem getItems_hidden (h : Tracks s a) {ids : List String} {items : List Item}
    (hget : getItems name ids s = (.ok items, s')) : sentinelId ∉ items.map (·.id) := by
  rw [getItems, ensureConnected_bind_eq_ok_iff, Step.bind_eq_ok_iff] at hget
  obtain ⟨-, t, s₁, hread, hitems⟩ := hget
  obtain ⟨rfl, r, -, hr, rfl⟩ := read_eq_ok h hread
  cases hitems
  refine hr.sentinel_not_mem fun item hitem => ?_
  obtain ⟨id, -, hfind⟩ := List.mem_filterMap.1 hitem
  rw [Roster.items_table hr] at hfind
  exact List.mem_of_find?_eq_some hfind

theorem listItems_hidden (h : Tracks s a) {request : PageRequest} {filter : Option Filter}
    {page : Page Item} (hlist : listItems name request filter s = (.ok page, s')) :
    sentinelId ∉ page.items.map (·.id) := by
  obtain ⟨filter', offset, r, -, hr, -, rfl⟩ := page_of_listItems h hlist
  refine (h.represents.sound name r hr).sentinel_not_mem fun item hitem => ?_
  exact (List.mem_filter.1 (List.mem_of_mem_drop (List.mem_of_mem_take hitem))).1

theorem pagesFrom_hidden (h : Tracks s a) {request : PageRequest} {filter : Option Filter}
    {fuel : Nat} {pages : List (Page Item)}
    (hwalk : (adapter (τ := Memory)).pagesFrom name filter fuel request s = (.ok pages, s')) :
    ∀ page ∈ pages, sentinelId ∉ page.items.map (·.id) := by
  -- on the pages; the session goes on tracking from one to the next
  induction fuel generalizing s request pages with
  | zero =>
    cases hwalk
    exact fun _ hpage => by cases hpage
  | succ fuel ih =>
    obtain ⟨page, s₁, hlist, hrest⟩ := Step.bind_eq_ok_iff.1 hwalk
    have hlist' : listItems name request filter s = (.ok page, s₁) := hlist
    have hpage := listItems_hidden h hlist'
    have h₁ := listItems_tracks h name request filter
    rw [hlist'] at h₁
    cases hnext : page.next with
    | none =>
      rw [hnext] at hrest
      cases hrest
      exact List.forall_mem_singleton.2 hpage
    | some token =>
      rw [hnext] at hrest
      obtain ⟨rest, s₂, hpages, hrest⟩ := Step.bind_eq_ok_iff.1 hrest
      cases hrest
      exact List.forall_mem_cons.2 ⟨hpage, ih h₁ hpages⟩

theorem search_hidden (h : Tracks s a) {query : Query} {results : List QueryResult}
    (hsearch : search name query s = (.ok results, s')) : sentinelId ∉ results.flatMap (·.ids) := by
  rw [search, ensureConnected_bind_eq_ok_iff, Action.ofResult_bind_eq_ok_iff] at hsearch
  obtain ⟨-, -, -, hsearch⟩ := hsearch
  obtain ⟨compiled, -, hsearch⟩ := Action.ofResult_bind_eq_ok_iff.1 hsearch
  obtain ⟨t, s₁, hread, hsearch⟩ := Step.bind_eq_ok_iff.1 hsearch
  obtain ⟨rfl, r, -, hr, rfl⟩ := read_eq_ok h hread
  obtain ⟨dimension, s₂, -, hsearch⟩ := Step.bind_eq_ok_iff.1 hsearch
  obtain ⟨vectors, s₃, -, hresults⟩ := Step.bind_eq_ok_iff.1 hsearch
  cases hresults
  intro hmem
  obtain ⟨result, hresult, hid⟩ := List.mem_flatMap.1 hmem
  obtain ⟨v, -, rfl⟩ := List.mem_map.1 hresult
  obtain ⟨hit, hhit, hid⟩ := mem_ids_finishHits hid
  -- a hit is an item that passes, with a score
  obtain ⟨item, hitem, hscored⟩ := List.mem_filterMap.1 hhit
  obtain ⟨e, -, hscored⟩ := Option.bind_eq_some_iff.1 hscored
  have hshown : item ∈ r.items := by
    rw [← Roster.items_table hr]
    exact (List.mem_filter.1 hitem).1
  split at hscored
  · cases hscored
    exact (hr item hshown).hidden hid
  · cases hscored

/-- **The sentinel is in no answer.** -/
theorem perform_hidden (h : Tracks s a) {call : AdapterCall} {answer : AdapterAnswer}
    (hperform : (adapter (τ := Memory)).perform call s = (.ok answer, s')) :
    sentinelId ∉ answer.ids := by
  cases call with
  | getItems name ids =>
    obtain ⟨items, s₁, hget, hanswer⟩ := Step.bind_eq_ok_iff.1 hperform
    cases hanswer
    exact getItems_hidden h hget
  | listItems name request filter =>
    obtain ⟨page, s₁, hlist, hanswer⟩ := Step.bind_eq_ok_iff.1 hperform
    cases hanswer
    exact listItems_hidden h hlist
  | walk name size filter =>
    obtain ⟨pages, s₁, hwalk, hanswer⟩ := Step.bind_eq_ok_iff.1 hperform
    cases hanswer
    intro hmem
    obtain ⟨page, hpage, hid⟩ := List.mem_flatMap.1 hmem
    exact pagesFrom_hidden h hwalk page hpage hid
  | search name query =>
    obtain ⟨results, s₁, hsearch, hanswer⟩ := Step.bind_eq_ok_iff.1 hperform
    cases hanswer
    exact search_hidden h hsearch
  | metadata | capabilities =>
    cases hperform
    exact List.not_mem_nil
  | _ =>
    -- the other answers show no items
    obtain ⟨_, _, -, hanswer⟩ := Step.bind_eq_ok_iff.1 hperform
    cases hanswer
    exact List.not_mem_nil

/-- A batch with the sentinel is refused before anything is done. -/
theorem addItems_sentinel (s : Session Memory) (name : String) {batch : List Item}
    (hbatch : sentinelId ∈ batch.map (·.id)) : ∃ e, addItems name batch s = (.error e, s) := by
  by_cases hconn : s.connected = true
  · have hsome : ¬ batch.isEmpty = true := by
      rintro hempty
      rw [List.isEmpty_iff.1 hempty] at hbatch
      cases hbatch
    rw [addItems, ensureConnected_bind hconn, if_neg hsome]
    cases Batch.checkIds batch with
    | error e => exact ⟨e, rfl⟩
    | ok u =>
      obtain ⟨e, hrefused⟩ := checkSentinel_of_mem hbatch
      rw [Step.bind_of_ok (Action.ofResult_apply _ s), hrefused]
      exact ⟨e, rfl⟩
  · exact ⟨_, ensureConnected_bind_of_not hconn _⟩

/-- An update of the sentinel misses it. -/
theorem updateItems_sentinel (h : Tracks s a) (name : String) {updates : List ItemUpdate}
    (hupdates : sentinelId ∈ updates.map (·.id)) :
    ∃ e, updateItems name updates s = (.error e, s) := by
  by_cases hconn : s.connected = true
  · have hsome : ¬ updates.isEmpty = true := by
      rintro hempty
      rw [List.isEmpty_iff.1 hempty] at hupdates
      cases hupdates
    rw [updateItems, ensureConnected_bind hconn, if_neg hsome]
    cases hr : a.rosters[name]? with
    | none =>
      have hget : getItems name (updates.map (·.id)) s =
          (.error (.notFound s!"table '{name}'"), s) := by
        rw [getItems, ensureConnected_bind hconn, Step.bind_of_error (read_of_none h hr)]
      exact ⟨_, Step.bind_of_error hget _⟩
    | some r =>
      have hget : getItems name (updates.map (·.id)) s =
          (.ok ((updates.map (·.id)).filterMap fun id =>
            r.table.items.find? fun item => item.id = id), s) := by
        rw [getItems, ensureConnected_bind hconn, Step.bind_of_ok (read_of_some h hr)]
        rfl
      rw [Step.bind_of_ok hget, Step.bind_of_ok (Step.get_apply s)]
      generalize (updates.map (·.id)).filterMap _ = stored at hget
      cases hmerged : Batch.mergeUpdates s.context stored updates with
      | error e => exact ⟨e, rfl⟩
      | ok merged =>
        -- what is updated was got, and the sentinel is not
        exfalso
        obtain ⟨u, hu, hid⟩ := List.mem_map.1 hupdates
        obtain ⟨item, hitem, hid'⟩ := Batch.exists_of_mergeUpdates hmerged u hu
        exact getItems_hidden h hget (List.mem_map.2 ⟨item, hitem, hid'.trans hid⟩)
  · exact ⟨_, ensureConnected_bind_of_not hconn _⟩

/-! ## Run by run -/

/-- What an adapter with tables in memory has in common with an archive. -/
structure Refines (s : Session Memory) (a : Archive) : Prop where
  /-- Every table is sound. -/
  sound : ∀ name t, Keyed.get? name s.server.tables = some t → t.IsSound
  /-- The collections show the items of their rosters. -/
  shown : ∀ name, contents s name = a.rosters[name]?.map Roster.items
  /-- A call answers what the archive answers, and fails as it does, unless it goes
  on with a listing under a filter. -/
  answers : ∀ call : AdapterCall, call.startsAfresh = true →
    ((adapter (τ := Memory)).perform call s).1 = (Archive.adapter.perform call a).1
  /-- A page at any token is cut from the items that pass a filter that is written as
  the one asked for. -/
  pages : ∀ name request filter page s', listItems name request filter s = (.ok page, s') →
    ∃ filter' offset, ∃ r : Roster, filter'.map (·.toJson.text) = filter.map (·.toJson.text) ∧
      a.rosters[name]? = some r ∧ request.offset = .ok offset ∧
      page = Page.slice (r.matching filter') offset request.size
  /-- Reading a listing from its first page to its end shows the items that pass, -/
  drained : ∀ name filter sizes items s', Drains (listItems name · filter) none sizes s items s' →
    ∃ r : Roster, a.rosters[name]? = some r ∧ items = r.matching filter
  /-- and the end is reached in pages of any sizes. -/
  drains : s.connected = true → ∀ (name : String) (r : Roster), a.rosters[name]? = some r →
    ∀ filter, checkFilter filter = .ok () → ∀ size : Nat → Nat, (∀ i, 0 < size i) →
      ∃ n s', Drains (listItems name · filter) none ((List.range n).map size) s
        (r.matching filter) s'
  /-- A batch that is added is put into the items that are shown, with the vectors of
  the provider, and the other collections show what they did. -/
  added : ∀ name batch s', batch.isEmpty = false → addItems name batch s = (.ok (), s') →
    ∃ before after full log, contents s name = some before ∧ contents s' name = some after ∧
      Batch.embedMissing s.context name none batch s.requests = (.ok full, log) ∧
      PutIn full before after ∧ ∀ other, other ≠ name → contents s' other = contents s other
  /-- A removal by ids, a filter or both takes its targets from the items that are
  shown, and nothing else. -/
  removed : ∀ name ids filter s', (ids.isEmpty && (filter.getD .empty).isEmpty) = false →
    deleteItems name ids filter s = (.ok (), s') →
      ∃ before, contents s name = some before ∧
        contents s' name =
          some (before.filter fun item => !Shelf.isTarget ids (filter.getD .empty) item) ∧
        ∀ other, other ≠ name → contents s' other = contents s other
  /-- The sentinel is in no answer, -/
  hidden : ∀ call answer s',
    (adapter (τ := Memory)).perform call s = (.ok answer, s') → sentinelId ∉ answer.ids
  /-- whoever adds or updates it is refused and changes nothing, -/
  notAdded : ∀ name batch, sentinelId ∈ batch.map Item.id →
    ∃ e, addItems name batch s = (.error e, s)
  notUpdated : ∀ name updates, sentinelId ∈ updates.map ItemUpdate.id →
    ∃ e, updateItems name updates s = (.error e, s)
  /-- and whatever is to be removed, it stays the first row. -/
  notRemoved : ∀ name ids filter t, Keyed.get? name s.server.tables = some t →
    ∃ t', Keyed.get? name (deleteItems name ids filter s).2.server.tables = some t' ∧
      t'.rows.head? = t.rows.head?

theorem Tracks.refines (h : Tracks s a) : Refines s a where
  sound name t ht := by
    obtain ⟨r, -, hr, rfl⟩ := h.represents.exists_roster ht
    exact Roster.isSound_table hr
  shown name := h.contents_eq name
  answers call hcall := (perform_alike h hcall).1
  pages _ _ _ _ _ hlist := page_of_listItems h hlist
  drained _ _ _ _ _ hdrain := drains_eq_matching h hdrain
  drains hconn _ _ hr _ hcheck _ hsize := exists_drains_matching h hconn hr hcheck hsize
  added _ _ _ hsome hadd := addItems_contents h hsome hadd
  removed _ _ _ _ hsome hdelete := deleteItems_contents h hsome hdelete
  hidden _ _ _ hperform := perform_hidden h hperform
  notAdded name _ hbatch := addItems_sentinel s name hbatch
  notUpdated name _ hupdates := updateItems_sentinel h name hupdates
  notRemoved _ ids filter _ ht := deleteItems_sentinel h ht ids filter

/-- An adapter that has just connected to an empty memory. -/
def opened (c : Context) : Session Memory := ((adapter (τ := Memory)).connect (.start .empty c)).2

/-- An archive that has just been connected to. -/
def Archive.opened (c : Context) : Archive := (Archive.adapter.connect (.start c)).2

theorem start_tracks (c : Context) : Tracks (.start .empty c) (.start c) where
  context := rfl
  connected := rfl
  asked := rfl
  represents := by
    have hempty : (Archive.start c).rosters = ∅ := rfl
    refine ⟨List.Pairwise.nil, fun name => ?_, fun name r hr => ?_⟩
    · rw [hempty, Std.ExtTreeMap.getElem?_empty]
      rfl
    · rw [hempty, Std.ExtTreeMap.getElem?_empty] at hr
      cases hr
  widths := ⟨[], rfl, fun _ _ h => by cases h⟩
  listings := fun _ _ h => by cases h

theorem opened_tracks (c : Context) : Tracks (opened c) (Archive.opened c) :=
  (connect_alike (start_tracks c)).2

/-- **The adapter refines the archive.** Whatever calls are made of an adapter that
has connected to an empty memory, with whatever arguments and provider, it is
left in accord with the archive that the same calls lead to: the tables are
sound, they show the items of the rosters in their order, and no answer shows
the sentinel. -/
theorem run_refines_archive (c : Context) (calls : List AdapterCall) :
    Refines ((adapter (τ := Memory)).run calls (opened c)).2
      (Archive.adapter.run calls (Archive.opened c)).2 :=
  (run_tracks (opened_tracks c) calls).refines

/-- An id that comes again takes the place of the first one, and the removal of the
sentinel is none. -/
example :
    ((adapter (τ := Memory)).run
      [.createCollection "docs" 1 .cosine,
        .addItems "docs" [⟨"b", some "x", [], none⟩, ⟨"a", none, [], none⟩],
        .addItems "docs" [⟨"b", some "y", [], none⟩],
        .deleteItems "docs" [sentinelId] none,
        .listItems "docs" ⟨none, 5⟩ none,
        .getItems "docs" [sentinelId],
        .countItems "docs"]
      (opened ⟨none, [], none⟩)).1 =
    [.ok .done, .ok .done, .ok .done, .ok .done,
      .ok (.page ⟨[⟨"b", some "y", [], none⟩, ⟨"a", none, [], none⟩], none⟩),
      .ok (.items []), .ok (.count 2)] := rfl

end Columnar

end VectorBridge
