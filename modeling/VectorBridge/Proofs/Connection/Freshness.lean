import VectorBridge.Proofs.Chroma.Pushdown
import VectorBridge.Proofs.Columnar.Freshness
import VectorBridge.Proofs.Connection.Atomic
import VectorBridge.Proofs.Connection.Search
import VectorBridge.Proofs.Family.Freshness
import VectorBridge.Proofs.Milvus.Pushdown
/-!
# Listings that are held are never stale

Connections to Chroma, to Milvus and to tables hold listings that the client had to filter,
and cut later pages from them. On the servers in memory one collection is not seen through
another, so that it is enough to drop the listings of a collection whenever it changes; that
this is done in time, by every call and however the call ends, is what is shown. Pages then
show items that are stored and pass the filter when they are asked for.
-/

namespace VectorBridge

open Session

namespace Chroma

variable {m m' : Memory} {name : String}

/-- What a change of an opened collection leaves alone. -/
theorem others_of_changing (hm : m.Numbered) {h : Info}
    (hattach : (family (τ := Memory)).attach name m = (.ok h, m)) {f : Stored → Stored}
    (hrun : Memory.changing h.id f m = (.ok (), m')) {other : String} (hne : other ≠ name) :
    storage.held? m' other = storage.held? m other := by
  obtain ⟨s, hs⟩ := held_of_attach hattach
  obtain rfl := opened_info ⟨hm, hattach, hs⟩
  exact (changed_of_changing hm hs hrun).others other hne

theorem shows : storage.Shows (family (τ := Memory)) Memory.Numbered :=
  lawful.shows fun {m name h s fragment request page} ho hread item hitem => by
    refine Storage.mem_of_pageAt (fun offset =>
      (Memory.reading h.id fun s => s.select
        { Selection.all with
          filter := fragment
          limit := some request.size
          offset := some offset }).toAction) id (fun {offset answer m₁} hrun => ?_) hread hitem
    rw [reading_of_opened ho] at hrun
    cases hrun
    exact ⟨select_page_eq s fragment offset request.size, rfl⟩

theorem isolates : (family (τ := Memory)).Isolates Memory.Numbered where
  create := by
    intro m c name width metric hm
    have hm' := guards.create c name width metric m hm
    refine shows.preserved hm hm' fun other s _ hs => ?_
    have hrun : ((family (τ := Memory)).create c name width metric m).2 =
        (Memory.create name (newMetadata c name metric) m).2 := Step.snd_then_pure _ _ m
    have hs : Keyed.get? other m.collections = some s := hs
    show Keyed.get? other _ = some s
    rw [hrun]
    unfold Memory.create
    cases hget : Keyed.get? name m.collections with
    | some s' => exact hs
    | none =>
      have hne : name ≠ other := by
        rintro rfl
        rw [hget] at hs
        cases hs
      exact (Keyed.get?_insert_of_ne hne _ _).trans hs
  drop := by
    intro m name m' hm hdrop
    have hm' := guards.drop name m hm
    have hdrop : Memory.drop name m = (.ok (), m') := hdrop
    rw [show (family (τ := Memory)).drop name m = _ from hdrop] at hm'
    refine shows.preserved hm hm' fun other s hne hs => ?_
    unfold Memory.drop at hdrop
    split at hdrop
    · cases hdrop
      exact (Keyed.get?_erase_of_ne (Ne.symm hne) _).trans hs
    · cases hdrop
  atomic_drop name := by
    intro m m' e hdrop
    have hdrop : Memory.drop name m = (.error e, m') := hdrop
    unfold Memory.drop at hdrop
    split at hdrop <;> cases hdrop
    rfl
  write := by
    intro m name h items m' hm hattach hwrite
    have hupsert : Memory.changing h.id (fun s => items.foldl Stored.write s) m = (.ok (), m') :=
      Call.toAction_eq_ok_iff.1 hwrite
    have hm' := keeps_changing h.id (foldl_write items) m hm
    rw [hupsert] at hm'
    exact shows.preserved hm hm' fun other s hne hs =>
      (others_of_changing hm hattach hupsert hne).trans hs
  eraseIds := by
    intro m name h ids m' hm hattach herase
    have hm' := guards.eraseIds h ids m hm
    rw [herase] at hm'
    exact shows.preserved hm hm' fun other s hne hs =>
      (others_of_changing hm hattach herase hne).trans hs
  eraseWhere := by
    intro m name h w m' hm hattach herase
    have hm' := guards.eraseWhere h w m hm
    rw [herase] at hm'
    exact shows.preserved hm hm' fun other s hne hs =>
      (others_of_changing hm hattach herase hne).trans hs

end Chroma

namespace Milvus

variable {m m' : Memory} {name : String}

/-- What a change of a collection leaves alone. -/
theorem others_of_changing {f : Stored → Except TransportError Stored}
    {r : Except TransportError Unit} (h : Memory.changing name f m = (r, m')) {other : String}
    (hne : other ≠ name) : Keyed.get? other m'.collections = Keyed.get? other m.collections := by
  unfold Memory.changing at h
  split at h
  · cases h
    rfl
  · split at h
    · cases h
      rfl
    · cases h
      exact Keyed.get?_insert_of_ne (Ne.symm hne) _ _

theorem others_of_deleteAll {c : Opened} {selectors : List Expr} {r : Except TransportError Unit}
    (h : deleteAll c selectors m = (r, m')) {other : String} (hne : other ≠ c.name) :
    Keyed.get? other m'.collections = Keyed.get? other m.collections := by
  have hkeeps : ∀ v, Step.Keeps (fun m : Memory => Keyed.get? other m.collections = v)
      (deleteAll (τ := Memory) c selectors) := by
    intro v
    clear h
    induction selectors with
    | nil => exact (Step.leaves_pure _).keeps
    | cons selector rest ih =>
      refine Step.Keeps.bind (fun m hm => ?_) fun _ => ih
      have hrun : Server.delete c.name selector m = (_, (Server.delete c.name selector m).2) := rfl
      exact (others_of_changing hrun hne).trans hm
  have hkept := hkeeps _ m rfl
  rwa [h] at hkept

/-- Nothing is asked of the server. -/
theorem guards_true : (family (τ := Memory)).Guards (fun _ => True) fun _ => True where
  create _ _ _ _ _ _ := trivial
  drop _ _ _ := trivial
  eraseIds _ _ _ _ := trivial
  eraseWhere _ _ _ _ := trivial
  write _ _ _ _ := trivial
  plain_fetch _ _ _ _ _ := trivial

theorem shows : storage.Shows (family (τ := Memory)) fun _ => True where
  readPage := by
    rintro m name c fragment ⟨token, size⟩ page - hattach hread
    obtain ⟨s, hs, -⟩ := attach_eq_ok hattach
    have ho : storage.Opened family (fun _ => True) m name c s := ⟨trivial, hattach, hs⟩
    rw [readPage_eq] at hread
    exact ⟨s, hs, fun _ hitem => Storage.mem_of_pageAt _ _ (rowsAt_eq_ok ho) hread hitem⟩
  held := by
    rintro m name filter found - ⟨compiled, c, items, hc, hattach, hfetch, rfl⟩
    obtain ⟨s, hs, rfl⟩ := attach_eq_ok hattach
    refine ⟨compiled, s, hc, hs, ?_⟩
    rw [fetchAll_of_opened (I := fun _ => True) ⟨trivial, hattach, hs⟩] at hfetch
    split at hfetch
    · cases hfetch
      rfl
    · cases hfetch
  finds := by
    rintro m m' name filter found s - - hs hs' ⟨compiled, c, items, hc, hattach, hfetch, rfl⟩
    obtain ⟨c', hattach'⟩ := lawful.attach_of_held hs'
    refine ⟨compiled, c', items, hc, hattach', ?_, rfl⟩
    rw [fetchAll_of_opened (I := fun _ => True) ⟨trivial, hattach, hs⟩] at hfetch
    rw [fetchAll_of_opened (I := fun _ => True) ⟨trivial, hattach', hs'⟩]
    exact congrArg (·, m') (Prod.mk.inj hfetch).1

theorem isolates : (family (τ := Memory)).Isolates fun _ => True where
  create := by
    intro m c name width metric _
    refine shows.preserved trivial trivial fun other s _ hs => ?_
    have hs : Keyed.get? other m.collections = some s := hs
    show Keyed.get? other (Memory.create name width metric m).2.collections = some s
    unfold Memory.create
    split
    · exact hs
    · rename_i hnew
      have hne : name ≠ other := by
        rintro rfl
        rw [Keyed.hasKey_eq_isSome, hs] at hnew
        exact hnew rfl
      exact (Keyed.get?_insert_of_ne hne _ _).trans hs
  drop := by
    intro m name m' _ hdrop
    obtain ⟨c, m₁, hopen, hrun⟩ := Step.bind_eq_ok_iff.1 hdrop
    have hleft := leaves_openCollection name m
    rw [hopen] at hleft
    obtain rfl : m₁ = m := hleft
    cases hrun
    exact shows.preserved trivial trivial fun other s hne hs =>
      (Keyed.get?_erase_of_ne (Ne.symm hne) _).trans hs
  atomic_drop name := .bind (fun m => leaves_openCollection name m) fun _ =>
    Step.Succeeds.atomic fun _ => ⟨_, _, rfl⟩
  write := by
    intro m name c items m' _ hattach hwrite
    obtain ⟨s, hs, rfl⟩ := attach_eq_ok hattach
    obtain ⟨keys, m₁, hassign, hrun⟩ := Step.bind_eq_ok_iff.1 hwrite
    obtain rfl := eq_of_assignKeys hassign
    obtain ⟨rows, -, hput⟩ := Action.ofResult_bind_eq_ok_iff.1 hrun
    have hupsert := Call.toAction_eq_ok_iff.1 hput
    exact shows.preserved trivial trivial fun other s hne hs =>
      (others_of_changing hupsert hne).trans hs
  eraseIds := by
    intro m name c ids m' _ hattach herase
    obtain ⟨s, hs, rfl⟩ := attach_eq_ok hattach
    exact shows.preserved trivial trivial fun other s hne hs =>
      (others_of_deleteAll herase hne).trans hs
  eraseWhere := by
    intro m name c fragment m' _ hattach herase
    obtain ⟨s, hs, rfl⟩ := attach_eq_ok hattach
    have hdelete : Server.delete name fragment m = (.ok (), m') := herase
    exact shows.preserved trivial trivial fun other s hne hs =>
      (others_of_changing hdelete hne).trans hs

end Milvus

/-! ## What a page may show -/

namespace Chroma

/-- What passes both parts of a filter is what the filter accepts. -/
theorem accepts_of_passing {s : Stored} {f : Filter} {compiled : CompiledFilter Json}
    (hc : filterCompiler.compile f = .ok compiled) {item : Item}
    (hitem : item ∈ storage.passing s compiled.native)
    (hresidual : compiled.residual.accepts item = true) : f.accepts item = true := by
  obtain ⟨row, hrow, rfl⟩ := List.mem_map.1 hitem
  have hpasses : passes compiled.native row.metadata = true := by
    have hadmits := (List.mem_filter.1 hrow).2
    cases hnative : compiled.native with
    | none => rfl
    | some w =>
      rw [hnative] at hadmits
      exact hadmits
  obtain ⟨hv, ws, hws, rfl⟩ := FilterCompiler.compile_eq_ok_iff.1 hc
  rw [passes_combine, all_satisfies_eq hws (fun c hc => hv c (List.mem_filter.1 hc).1)
    (fun c hc => (List.mem_filter.1 hc).2), Bool.and_eq_true] at hpasses
  have haccepts : (filterCompiler.serverSide f).all (·.accepts row) = true := hpasses.1
  show f.accepts row = true
  rw [filterCompiler.accepts_eq_parts f, haccepts, Bool.true_and]
  exact hresidual

end Chroma

namespace Milvus

/-- What passes both parts of a filter is what the filter accepts, if the server is not asked
about hidden fields. -/
theorem accepts_of_passing {s : Stored} {f : Filter} {compiled : CompiledFilter Expr}
    (hc : filterCompiler.compile f = .ok compiled)
    (hshown : ∀ c ∈ filterCompiler.serverSide f, c.field ∉ s.schema.hidden) {item : Item}
    (hitem : item ∈ storage.passing s compiled.native)
    (hresidual : compiled.residual.accepts item = true) : f.accepts item = true := by
  obtain ⟨row, hrow, rfl⟩ := List.mem_map.1 hitem
  have hpasses : passes compiled.native row = true := by
    have hadmits := (List.mem_filter.1 hrow).2
    cases hnative : compiled.native with
    | none => rfl
    | some e =>
      rw [hnative] at hadmits
      exact hadmits
  have hresidual : compiled.residual.accepts (itemOf s.schema row) = true := hresidual
  have hboth := holds_and_residual_eq hc s.schema row
  rw [hpasses, hresidual] at hboth
  rw [Filter.accepts, List.all_eq_true]
  intro c hmem
  have haccepts := List.all_eq_true.1 hboth.symm c hmem
  rw [Bool.or_eq_true] at haccepts
  refine haccepts.resolve_right fun hfinds => ?_
  have hserver : filterCompiler.capabilities.isServerSide c = true := by
    rw [Schema.findsHidden, Bool.and_eq_true] at hfinds
    exact hfinds.1
  rw [findsHidden_of_not_mem_hidden (hshown c (List.mem_filter.2 ⟨hmem, hserver⟩))] at hfinds
  cases hfinds

end Milvus

namespace Holding

/-- Whether the server is asked about a field that items do not show as it is stored. Only
rows on Milvus have such fields. -/
def asksHidden (f : Filter) : Holding → Bool
  | milvus s => (Milvus.filterCompiler.serverSide f).any fun c => s.schema.hidden.contains c.field
  | chroma _ | qdrant _ | postgres _ | weaviate _ | table _ => false

/-- An item that is stored and matches a filter: the server finds it for the part of the filter
that is pushed down, and the client's part accepts it. Then the filter accepts the item, unless
the server was asked about a field that the item does not show. -/
structure Matches (h : Holding) (filter : Option Filter) (item : Item) : Prop where
  stored : item ∈ h.items
  passes : ∃ passing residual, h.pushDown filter = .ok (passing, residual) ∧ item ∈ passing ∧
    residual.accepts item = true
  accepted : ∀ f, filter = some f → h.asksHidden f = false → f.accepts item = true

end Holding

namespace Connection

/-- The listings that are held. -/
def listings (c : Connection) : Listings Item := c.reading fun _ s => s.listings

/-- What fetching a listing anew and filtering it gives. -/
def Finds (name : String) (filter : Option Filter) (found : List Item) : Connection → Prop
  | chroma s => Chroma.family.Finds s.server name filter found
  | milvus s => Milvus.family.Finds s.server name filter found
  | tables s => Columnar.Finds s.server name filter found
  | chromaRest _ | qdrant _ | postgres _ | milvusRest _ | weaviate _ | weaviateRest _
  | directory _ | unsteady _ => False

/-- Every listing that is held is held for a collection and a filter, and is what fetching it
anew for them would give. -/
def UpToDate (c : Connection) : Prop :=
  ∀ key found, Keyed.get? key c.listings = some found →
    (∃ name filter, Session.listingKey name filter = key) ∧
      ∀ name filter, Session.listingKey name filter = key → c.Finds name filter found

/-- A connection to a server in memory before it holds a listing. The server may hold
anything. -/
def Unread : Connection → Prop
  | chroma s => s.server.Numbered ∧ s.listings = []
  | milvus s => s.listings = []
  | tables s => s.listings = []
  | chromaRest _ | qdrant _ | postgres _ | milvusRest _ | weaviate _ | weaviateRest _
  | directory _ | unsteady _ => False

/-- The connection after some calls. -/
def after (calls : List AdapterCall) (c : Connection) : Connection :=
  calls.foldl (fun c call => (perform call c).2) c

/-- What is held is up to date, session by session. -/
def HoldsFresh : Connection → Prop
  | chroma s => Chroma.family.Fresh Chroma.Memory.Numbered s
  | milvus s => Milvus.family.Fresh (fun _ => True) s
  | tables s => Columnar.Fresh s
  | chromaRest _ | qdrant _ | postgres _ | milvusRest _ | weaviate _ | weaviateRest _
  | directory _ | unsteady _ => False

variable {c c' : Connection}

theorem Unread.holdsFresh (h : c.Unread) : c.HoldsFresh := by
  cases c with
  | chroma s => exact ⟨h.1, upToDate_of_nil h.2⟩
  | milvus s => exact ⟨trivial, upToDate_of_nil h⟩
  | tables s => exact upToDate_of_nil h
  | chromaRest | qdrant | postgres | milvusRest | weaviate | weaviateRest | directory | unsteady =>
    exact h.elim

/-- **Every call keeps what is held fresh**, whether it succeeds or not. -/
theorem HoldsFresh.perform (h : c.HoldsFresh) (call : AdapterCall) :
    (Connection.perform call c).2.HoldsFresh := by
  have hany : call.Admissible fun _ => True := call.admissible_of_forall fun _ => trivial
  cases c with
  | chroma s =>
    exact (Family.keeps_fresh Chroma.readsOnly Chroma.atomic Chroma.guards
      Chroma.isolates).perform hany s h
  | milvus s =>
    exact (Family.keeps_fresh Milvus.readsOnly Milvus.atomic Milvus.guards_true
      Milvus.isolates).perform hany s h
  | tables s => exact Columnar.keeps_fresh.perform hany s h
  | chromaRest | qdrant | postgres | milvusRest | weaviate | weaviateRest | directory | unsteady =>
    exact h.elim

theorem HoldsFresh.after (h : c.HoldsFresh) (calls : List AdapterCall) :
    (c.after calls).HoldsFresh := by
  induction calls generalizing c with
  | nil => exact h
  | cons call calls ih => exact ih (h.perform call)

theorem HoldsFresh.upToDate (h : c.HoldsFresh) : c.UpToDate := by
  -- a key is of one collection and one filter only
  have hsession : ∀ {τ : Type} {finds : τ → String → Option Filter → List Item → Prop}
      {s : Session τ}, s.UpToDate finds → ∀ key found, Keyed.get? key s.listings = some found →
        (∃ name filter, Session.listingKey name filter = key) ∧
          ∀ name filter, Session.listingKey name filter = key →
            finds s.server name filter found := by
    intro τ finds s hs key found hget
    obtain ⟨name, filter, hkey, -⟩ := hs key found hget
    refine ⟨⟨name, filter, hkey⟩, ?_⟩
    rintro name' filter' rfl
    exact hs.finds_of_held hget
  cases c with
  | chroma s => exact hsession h.2
  | milvus s => exact hsession h.2
  | tables s => exact hsession h
  | chromaRest | qdrant | postgres | milvusRest | weaviate | weaviateRest | directory | unsteady =>
    exact h.elim

/-! ## Pages -/

theorem wrapsSearch_milvus : WrapsSearch Milvus.storage Milvus.family milvus .milvus :=
  { wraps_milvus with }

section Family

variable {τ Held Row Handle Condition Fragment : Type} {V : Storage τ Held Row Fragment}
variable {F : Family τ Handle Condition Fragment} {I : τ → Prop} {mk : Session τ → Connection}
variable {inj : Held → Holding}

/-- What a page of a connection shows is what a page of its session shows. -/
theorem page_of_family (W : WrapsSearch V F mk inj) (S : V.Shows F I) (R : F.ReadsOnly)
    (haccepts : ∀ {f compiled held item}, F.compiler.compile f = .ok compiled →
      (inj held).asksHidden f = false → item ∈ V.passing held compiled.native →
        compiled.residual.accepts item = true → f.accepts item = true)
    {s : Session τ} (hs : F.Fresh I s) {name : String} {request : PageRequest}
    {filter : Option Filter} {page : Page Item}
    (hlist : listItems name request filter (mk s) = (.ok page, c')) :
    ∃ h, (mk s).holding? ((mk s).serverName name) = some h ∧
      ∀ item ∈ page.items, h.Matches filter item := by
  rw [W.list] at hlist
  obtain ⟨hok, -⟩ := Prod.mk.inj hlist
  obtain ⟨compiled, held, hcompiled, hheld, hitems⟩ := S.page R hs (Prod.ext hok rfl)
  refine ⟨inj held, by rw [W.holding?, W.serverName, hheld, Option.map_some], fun item hitem => ?_⟩
  obtain ⟨hpassing, hresidual⟩ := hitems item hitem
  refine ⟨?_, ⟨_, _, by rw [W.pushDown, hcompiled]; rfl, hpassing, hresidual⟩, ?_⟩
  · rw [W.items]
    exact List.map_subset _ (List.filter_subset_self _) hpassing
  · rintro f rfl hshown
    exact haccepts hcompiled hshown hpassing hresidual

end Family

theorem HoldsFresh.page (hc : c.HoldsFresh) {name : String} {request : PageRequest}
    {filter : Option Filter} {page : Page Item}
    (hlist : listItems name request filter c = (.ok page, c')) :
    ∃ h, c.holding? name = some h ∧ ∀ item ∈ page.items, h.Matches filter item := by
  cases c with
  | chroma s =>
    exact page_of_family wrapsSearch_chroma Chroma.shows Chroma.readsOnly
      (fun hcompiled _ => Chroma.accepts_of_passing hcompiled) hc hlist
  | milvus s =>
    exact page_of_family wrapsSearch_milvus Milvus.shows Milvus.readsOnly
      (fun hcompiled hshown => Milvus.accepts_of_passing hcompiled (by
        simpa [Holding.asksHidden] using hshown)) hc hlist
  | tables s =>
    have hrun : (Columnar.listItems name request filter s).map id tables = (.ok page, c') := hlist
    obtain ⟨hok, -⟩ := Prod.mk.inj hrun
    obtain ⟨compiled, t, hcompiled, hget, hitems⟩ := Columnar.page_of_fresh hc (Prod.ext hok rfl)
    refine ⟨.table t, congrArg (Option.map Holding.table) hget, fun item hitem => ?_⟩
    obtain ⟨hstored, hresidual⟩ := hitems item hitem
    refine ⟨hstored, ⟨t.items, compiled.residual, ?_, hstored, hresidual⟩, ?_⟩
    · rw [Holding.pushDown, hcompiled]
      rfl
    · rintro f rfl -
      rw [Columnar.compile?_eq] at hcompiled
      cases hcheck : Columnar.checkFilter (some f) with
      | error e =>
        rw [hcheck] at hcompiled
        cases hcompiled
      | ok u =>
        rw [hcheck] at hcompiled
        cases hcompiled
        exact hresidual
  | chromaRest | qdrant | postgres | milvusRest | weaviate | weaviateRest | directory | unsteady =>
    exact hc.elim

/-- **Listings that are held are never stale.** Take a connection to Chroma, to Milvus or to
tables on a server in memory that holds anything, and make any calls, which may succeed or
fail. Each listing that the connection then holds is held for one collection and one filter,
and is the list that fetching it anew and filtering it would give. So whatever page is asked
for, a first one or a later one, its items are stored at that time and pass the filter. -/
theorem held_listings_are_fresh (hc : c.Unread) (calls : List AdapterCall) :
    (c.after calls).UpToDate ∧
      ∀ {name : String} {request : PageRequest} {filter : Option Filter} {page : Page Item}
        {c' : Connection}, listItems name request filter (c.after calls) = (.ok page, c') →
          ∃ h, (c.after calls).holding? name = some h ∧
            ∀ item ∈ page.items, h.Matches filter item :=
  ⟨(hc.holdsFresh.after calls).upToDate, (hc.holdsFresh.after calls).page⟩

/-- Three items pass; the listing is read, an item of it is removed, and the listing is read
anew. -/
def readAndRemoved : List AdapterCall :=
  [.connect, .createCollection "docs" 1 .cosine,
    .addItems "docs" [marked "p" 1 "b", marked "q" 1 "b", marked "r" 1 "b"],
    .listItems "docs" (.first 1) (some positiveB), .deleteItems "docs" ["q"] none,
    .listItems "docs" (.first 1) (some positiveB)]

/-- The second page is cut from what is held, which has the item no more. -/
theorem held_listings_are_fresh_after_removal :
    ∃ page c' h, (chroma (.start .empty .empty)).Unread ∧
      ((chroma (.start .empty .empty)).after readAndRemoved).listings.length = 1 ∧
      ((chroma (.start .empty .empty)).after readAndRemoved).UpToDate ∧
      listItems "docs" (.next (.offset 1) 1) (some positiveB)
        ((chroma (.start .empty .empty)).after readAndRemoved) = (.ok page, c') ∧
      page.items.map (·.id) = ["r"] ∧
      ((chroma (.start .empty .empty)).after readAndRemoved).holding? "docs" = some h ∧
      ∀ item ∈ page.items, h.Matches (some positiveB) item := by
  have hunread : (chroma (.start .empty .empty)).Unread :=
    ⟨⟨List.Pairwise.nil, nofun, nofun, nofun, nofun⟩, rfl⟩
  have hheld : ((chroma (.start .empty .empty)).after readAndRemoved).listings.length = 1 := by
    decide +kernel
  have hread : (listItems "docs" (.next (.offset 1) 1) (some positiveB)
      ((chroma (.start .empty .empty)).after readAndRemoved)).1.toOption.map
        (fun page => page.items.map (·.id)) = some ["r"] := by decide +kernel
  rcases hlist : listItems "docs" (.next (.offset 1) 1) (some positiveB)
    ((chroma (.start .empty .empty)).after readAndRemoved) with ⟨result, c'⟩
  rw [hlist] at hread
  obtain ⟨page, hpage, hids⟩ := Option.map_eq_some_iff.1 hread
  obtain rfl : result = .ok page := ok_of_toOption hpage
  obtain ⟨hfresh, hshows⟩ := held_listings_are_fresh hunread readAndRemoved
  obtain ⟨h, hholds, hitems⟩ := hshows hlist
  exact ⟨page, c', h, hunread, hheld, hfresh, rfl, hids, hholds, hitems⟩

end Connection

end VectorBridge
