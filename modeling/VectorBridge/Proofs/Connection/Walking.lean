import VectorBridge.Proofs.Connection.Reading
import VectorBridge.Proofs.Milvus.Walking
import VectorBridge.Proofs.Qdrant.Walking
import VectorBridge.Proofs.Weaviate.Walking
/-!
# Walks through whole collections

Three loops read a collection to its end: one fetches what a Milvus server has in batches,
one does so with a Weaviate server, and one looks for the ids of what passes a filter, page
by page, on a server of any kind. Each goes on with what the one before was answered, so
that it ends, that it leaves nothing out and that it reads nothing twice is said of the
loops together with the servers in memory.

Only on a Milvus server is there a limit to what a walk finds, and past it the walk is
refused: none ends early without saying so.
-/

namespace VectorBridge

/-! ## What servers in memory show walks -/

namespace Chroma

theorem walks : storage.Walks (family (τ := Memory)) Memory.Numbered (fun _ => True)
    fun _ => True where
  length_lt ho := storage.length_passing_lt ho.held
  pages := by
    intro m name h s ho fragment
    have hread : ∀ size offset, ∃ items, (Memory.reading h.id fun s => s.select
        { Selection.all with
          filter := fragment
          limit := some size
          offset := some offset }).toAction m = (.ok items, m) ∧
        id items = ((storage.passing s fragment).drop offset).take size :=
      fun size offset => ⟨_, reading_of_opened ho _, select_page_eq s fragment offset size⟩
    exact Storage.exists_rounds_pageAt _ id (fun _ _ => rfl) hread
  fetchAll := by
    intro m name h s ho fragment
    refine ⟨_, reading_of_opened ho _, ?_⟩
    rw [select_eq]
    exact okIff_ok trivial _

end Chroma

namespace Postgres

theorem walks : storage.Walks family Memory.Ordered (fun _ => True) fun _ => True where
  length_lt ho := storage.length_passing_lt ho.held
  pages := by
    intro m name h t ho fragment
    cases ho.attach
    have hread : ∀ size offset, ∃ items, (Memory.reading name fun t =>
        ((t.passing fragment).drop offset).take size).toAction m = (.ok items, m) ∧
          id items = ((storage.passing t fragment).drop offset).take size :=
      fun size offset => ⟨_, reading_of_opened ho _, by rw [passing_eq]; rfl⟩
    exact Storage.exists_rounds_pageAt _ id (fun _ _ => rfl) hread
  fetchAll := by
    intro m name h t ho fragment
    cases ho.attach
    refine ⟨_, reading_of_opened ho _, ?_⟩
    rw [passing_eq]
    exact okIff_ok trivial _

end Postgres

namespace Qdrant

variable {m m' : Memory} {name : String} {s : Stored} {filter : Option PointFilter}

/-- The ids of the points from a request on. -/
def idsAfter (found : List Point) (request : PageRequest) : Action Memory (List String) := fun m =>
  ((start? request).map fun start =>
    (found.filter fun p => startsBefore start p.id).map fun p => p.toItem.id, m)

theorem idsAfter_of_marks {found rest : List Point} {token : Option PageToken}
    (hmarks : Marks found token rest) (size : Nat) (m : Memory) :
    idsAfter found ⟨token, size⟩ m = (.ok (rest.map fun p => p.toItem.id), m) := by
  obtain ⟨start, hstart, hrest⟩ := hmarks size
  rw [idsAfter, hstart, Except.map, hrest]

/-- A walk is at a cursor, with some of the points that are found still to be shown. -/
structure AtCursor (m : Memory) (found rest : List Point) (request : PageRequest) (m' : Memory) :
    Prop where
  unchanged : m' = m
  size : request.size = PageRequest.defaultSize
  marks : Marks found request.token rest
  split : ∃ seen, found = seen ++ rest

variable {rest : List Point} {request : PageRequest}

/-- A page either shows all that is left, or names the first point that it has no room for,
and the walk goes on there. -/
theorem AtCursor.findPage (hs : Keyed.get? name m.collections = some s) (hordered : s.Ordered)
    (h : AtCursor m (s.passing filter) rest request m') :
    Adapter.findPage (family.readPage name filter) request m' =
        (.ok (rest.map fun p => p.toItem.id, none), m') ∨
      ∃ before after next, rest = before ++ after ∧ after.length < rest.length ∧
        Adapter.findPage (family.readPage name filter) request m' =
          (.ok (before.map fun p => p.toItem.id, some next), m') ∧
        AtCursor m (s.passing filter) after next m' := by
  obtain ⟨rfl, hsize, hmarks, seen, hsplit⟩ := h
  obtain ⟨token, size⟩ := request
  obtain rfl : size = PageRequest.defaultSize := hsize
  have hround := findPage_of_ok (readPage_of_marks hs hmarks PageRequest.defaultSize)
  rw [List.map_map] at hround
  cases hdrop : rest.drop PageRequest.defaultSize with
  | nil =>
    rw [hdrop, List.take_of_length_le (List.drop_eq_nil_iff.1 hdrop)] at hround
    exact .inl hround
  | cons p tail =>
    rw [hdrop] at hround
    have hparts : rest = rest.take PageRequest.defaultSize ++ p :: tail := by
      rw [← hdrop, List.take_append_drop]
    have hplace : s.passing filter = (seen ++ rest.take PageRequest.defaultSize) ++ p :: tail := by
      rw [List.append_assoc, ← hparts, hsplit]
    have hpos : 0 < PageRequest.defaultSize := by decide
    have hless : (p :: tail).length < rest.length := by
      have hlength := congrArg List.length hdrop
      rw [List.length_drop] at hlength
      rw [List.length_cons] at hlength ⊢
      omega
    have hmarks' := marks_cursor (pairwise_passing hordered filter) hplace
    exact .inr ⟨_, _, _, hparts, hless, hround, rfl, rfl, hmarks', _, hplace⟩

/-- A walk is at a cursor, with `n` points still to be shown. -/
def LeavesAt (m : Memory) (found : List Point) (n : Nat) (request : PageRequest) (m' : Memory) :
    Prop :=
  ∃ rest, AtCursor m found rest request m' ∧ n = rest.length

/-- The points that are left are those of a page and those from its cursor on. -/
theorem idsAfter_eq_findPage (hs : Keyed.get? name m.collections = some s) (hordered : s.Ordered)
    {n : Nat} (h : LeavesAt m (s.passing filter) n request m') :
    idsAfter (s.passing filter) request m' =
      (Adapter.findPage (family.readPage name filter) request >>=
        goOn (idsAfter (s.passing filter))) m' := by
  obtain ⟨rest, h, -⟩ := h
  have hleft : idsAfter (s.passing filter) request m' = _ := idsAfter_of_marks h.marks _ m'
  rw [hleft]
  rcases h.findPage hs hordered with hlast | ⟨before, after, next, rfl, -, hround, hnext⟩
  · rw [Step.bind_of_ok hlast]
    rfl
  · have hrest : idsAfter (s.passing filter) next m' = _ := idsAfter_of_marks hnext.marks _ m'
    rw [Step.bind_of_ok hround, goOn_some_apply, hrest, List.map_append]
    rfl

theorem leavesAt_of_findPage (hs : Keyed.get? name m.collections = some s) (hordered : s.Ordered)
    {n : Nat} {ids : List String} {next : PageRequest} {m'' : Memory}
    (h : LeavesAt m (s.passing filter) n request m')
    (hround : Adapter.findPage (family.readPage name filter) request m' =
      (.ok (ids, some next), m'')) :
    ∃ k < n, LeavesAt m (s.passing filter) k next m'' := by
  obtain ⟨rest, h, rfl⟩ := h
  rcases h.findPage hs hordered with hlast | ⟨before, after, next', rfl, hlt, hmore, hnext⟩
  · rw [hlast] at hround
    cases hround
  · rw [hmore] at hround
    cases hround
    exact ⟨_, hlt, after, hnext, rfl⟩

/-- **What walks are shown on a Qdrant server**: pages from one cursor to the next, and
everything at once. -/
theorem walks : storage.Walks family Memory.Ordered (fun _ => True) fun _ => True where
  length_lt ho := storage.length_passing_lt ho.held
  pages := by
    intro m name h s ho filter
    cases ho.attach
    have hs : Keyed.get? name m.collections = some s := ho.held
    have hordered : s.Ordered := ho.inv name s hs
    have hmarks := marks_none (s.passing filter)
    have hstart : LeavesAt m (s.passing filter) (s.passing filter).length
        (.first PageRequest.defaultSize) m := ⟨_, ⟨rfl, rfl, hmarks, [], rfl⟩, rfl⟩
    obtain ⟨later, hrounds, hlength, -⟩ :=
      exists_rounds (idsAfter_eq_findPage hs hordered) (leavesAt_of_findPage hs hordered) hstart
    rw [PageRequest.first, idsAfter_of_marks hmarks] at hrounds
    rw [← passing_eq, List.length_map, List.map_map]
    exact ⟨later, _, hrounds, hlength, okIff_ok trivial _⟩
  fetchAll := by
    intro m name h s ho filter
    cases ho.attach
    refine ⟨_, reading_apply ho.held _, ?_⟩
    rw [passing_eq]
    exact okIff_ok trivial _

end Qdrant

namespace Columnar

open Session

/-- **A walk through a table** finds the ids of all that passes, when there are a
connection, a table and a filter that can be checked. -/
theorem exists_rounds_listItems (s : Session Memory) (name : String) (f : Filter) :
    ∃ later found s', Rounds (Adapter.findPage (listItems name · (some f)))
        (.first PageRequest.defaultSize) later s (found, s') ∧
      ∀ ids, found = .ok ids ↔ s.connected = true ∧ ∃ t,
        Keyed.get? name s.server.tables = some t ∧ checkFilter (some f) = .ok () ∧
        ids = (t.items.filter f.accepts).map (·.id) := by
  by_cases hopen : s.connected = true ∧ ∃ t, Keyed.get? name s.server.tables = some t ∧
    checkFilter (some f) = .ok ()
  · obtain ⟨hconn, t, hheld, hcheck⟩ := hopen
    have hfetch : passing name (some f) s = (.ok (t.items.filter f.accepts), s) :=
      passing_apply hheld (some f)
    obtain ⟨later, hrounds, -⟩ := exists_rounds_materialized
      (fun _ hstill hsize => listItems_eq_materialized (hstill.trans hconn) hsize hcheck) hfetch
    refine ⟨later, _, _, hrounds, fun ids => ⟨?_, ?_⟩⟩
    · rintro ⟨⟩
      exact ⟨hconn, t, hheld, hcheck, rfl⟩
    · rintro ⟨-, t', hheld', -, rfl⟩
      obtain rfl := Option.some.inj (hheld.symm.trans hheld')
      rfl
  · obtain ⟨e, s', hfirst⟩ : ∃ e s',
        listItems name (.first PageRequest.defaultSize) (some f) s = (.error e, s') := by
      rcases hlist : listItems name (.first PageRequest.defaultSize) (some f) s with ⟨e | page, s'⟩
      · exact ⟨e, s', rfl⟩
      · obtain ⟨hconn, -, hcheck, hcut⟩ := materialized_of_listItems hlist
        obtain ⟨found, s₁, hfetch⟩ := materialized_first_eq_ok hcut
        obtain ⟨t, s₂, hread, -⟩ := Step.bind_eq_ok_iff.1 hfetch
        exact (hopen ⟨hconn, t, (call_read_eq_ok_iff.1 hread).1, hcheck⟩).elim
    refine ⟨[], .error e, s', .failed (findPage_of_error hfirst), fun ids => ⟨nofun, ?_⟩⟩
    rintro ⟨hconn, t, hheld, hcheck, -⟩
    exact (hopen ⟨hconn, t, hheld, hcheck⟩).elim

end Columnar

/-! ## Connections -/

/-- How much may pass in a collection for a walk under a filter, of which some is left to the
client, to get through. -/
def Holding.FitsWalk (residual : Filter) (count : Nat) : Holding → Prop
  | milvus _ => if residual.isEmpty then count < Milvus.pagedRows else count < Milvus.window
  | chroma _ | qdrant _ | postgres _ | weaviate _ | table _ => True

namespace Connection

/-- The search for the ids of what passes a filter, of the adapters that search for them. -/
def filteredIds? (name : String) (f : Filter) :
    Connection → Option (Result (List String) × Connection)
  | chroma s => some ((Chroma.family.filteredIds name [] f s).map id chroma)
  | chromaRest s => some ((Chroma.family.filteredIds name [] f s).map id chromaRest)
  | qdrant s => some ((Qdrant.family.filteredIds name [] f s).map id qdrant)
  | postgres s => some ((Postgres.family.filteredIds name [] f s).map id postgres)
  | milvus s => some ((Milvus.family.filteredIds name [] f s).map id milvus)
  | milvusRest s => some ((Milvus.family.filteredIds name [] f s).map id milvusRest)
  | weaviate s => some ((Weaviate.family.filteredIds name [] f s).map id weaviate)
  | weaviateRest s => some ((Weaviate.family.filteredIds name [] f s).map id weaviateRest)
  | tables _ | directory _ | unsteady _ => none

/-- A walk for ids through the listing of a collection under a filter, which comes to an end
after the requests `later`, with what it has found and the connection after it. -/
structure FindsIds (c : Connection) (name : String) (f : Filter) (later : List PageRequest)
    (found : Result (List String)) (c' : Connection) : Prop where
  rounds : Rounds (Adapter.findPage (listItems name · (some f)))
    (.first PageRequest.defaultSize) later c (found, c')
  /-- An adapter that makes such walks makes this one, and does not cut it short. -/
  complete : ∀ outcome, c.filteredIds? name f = some outcome → outcome = (found, c')
  /-- What passes both parts of the filter is found, every item of it once and in order. -/
  found_iff : ∀ ids, found = .ok ids ↔ Managed.isConnected c = true ∧ ∃ h passing residual,
    c.holding? (c.serverName name) = some h ∧ h.pushDown (some f) = .ok (passing, residual) ∧
    h.FitsWalk residual passing.length ∧ ids = (passing.filter residual.accepts).map (·.id)
  /-- No id comes twice, where a server that keeps items under keys of its own was called
  without metadata under the reserved key. -/
  once : (c.mapsIds = true → c.Reached) → ∀ ids, found = .ok ids → ids.Nodup
  /-- Where nothing is found the listing has refused a page. -/
  refused : ∀ e, found = .error e → ∃ request ∈ .first PageRequest.defaultSize :: later, ∃ c₁,
    listItems name request (some f) c₁ = (.error e, c')

variable {c c' : Connection} {name : String} {f : Filter} {later : List PageRequest}
variable {found : Result (List String)}

/-- What fails a walk is a page. -/
theorem refused_of_rounds (h : Rounds (Adapter.findPage (listItems name · (some f)))
    (.first PageRequest.defaultSize) later c (found, c')) {e : Error} (he : found = .error e) :
    ∃ request ∈ .first PageRequest.defaultSize :: later, ∃ c₁,
      listItems name request (some f) c₁ = (.error e, c') := by
  obtain ⟨request, hmem, c₁, hfailed⟩ := h.exists_of_error he
  exact ⟨request, hmem, c₁, readPage_of_findPage_error hfailed⟩

section Family

variable {τ Held Row Handle Condition Fragment : Type} {V : Storage τ Held Row Fragment}
variable {F : Family τ Handle Condition Fragment} {I J : τ → Prop} {paged whole : Nat → Prop}
variable {mk : Session τ → Connection} {inj : Held → Holding}

/-- A walk of a connection is one of its session. -/
theorem findsIds_of_family (W : WrapsSearch V F mk inj) (L : V.Lawful F J)
    (walks : V.Walks F I paged whole) {s : Session τ} (hI : I s.server)
    (hJ : ((mk s).mapsIds = true → (mk s).Reached) → J s.server) {name : String} {f : Filter}
    (hsearch : (mk s).filteredIds? name f = some ((F.filteredIds name [] f s).map id mk))
    (hfits : ∀ held (compiled : CompiledFilter Fragment) n,
      (inj held).FitsWalk compiled.residual n ↔ Family.Fits paged whole compiled n) :
    ∃ later found c', (mk s).FindsIds name f later found c' := by
  obtain ⟨later, found, s', hfinds, hfound⟩ := Family.exists_findsIds L walks hI name f
  have hkeeps : ∀ request, Step.Keeps (fun _ => True) (F.listItems name request (some f)) :=
    fun _ _ _ => trivial
  have hrounds := rounds_lift_pages mk hfinds.rounds hkeeps trivial
    fun request _ s _ => W.list name request (some f) s
  refine ⟨later, found, mk s', hrounds, ?_, fun ids => (hfound ids).trans ?_, ?_,
    fun _ => refused_of_rounds hrounds⟩
  · rintro outcome houtcome
    rw [hsearch, hfinds.complete] at houtcome
    exact (Option.some.inj houtcome).symm
  · rw [W.isConnected, W.serverName, W.holding?]
    refine and_congr_right fun _ => ⟨?_, ?_⟩
    · rintro ⟨held, compiled, hheld, hc, hroom, rfl⟩
      have hc' : F.compiler.compile? (some f) = .ok compiled := hc
      exact ⟨inj held, _, _, by rw [hheld, Option.map_some], by rw [W.pushDown, hc']; rfl,
        (hfits held compiled _).2 hroom, rfl⟩
    · rintro ⟨h, passing, residual, hheld, hpush, hroom, rfl⟩
      obtain ⟨held, hstored, rfl⟩ := Option.map_eq_some_iff.1 hheld
      rw [W.pushDown] at hpush
      cases hcompiled : F.compiler.compile? (some f) with
      | error e =>
        rw [hcompiled] at hpush
        cases hpush
      | ok compiled =>
        rw [hcompiled] at hpush
        cases hpush
        exact ⟨held, compiled, hstored, hcompiled, (hfits held compiled _).1 hroom, rfl⟩
  · rintro hreached ids hids
    obtain ⟨-, held, compiled, hheld, -, -, rfl⟩ := (hfound ids).1 hids
    exact (L.nodup (hJ hreached) hheld).sublist ((Family.matching_sublist V held compiled).map _)

end Family

/-- A walk of a connection to tables. -/
theorem findsIds_of_table {s : Session Columnar.Memory} (hs : s.server.Distinct) (name : String)
    (f : Filter) : ∃ later found c', (tables s).FindsIds name f later found c' := by
  obtain ⟨later, found, s', hrounds, hfound⟩ := Columnar.exists_rounds_listItems s name f
  have hkeeps : ∀ request, Step.Keeps (fun _ => True)
      (Columnar.listItems (τ := Columnar.Memory) name request (some f)) := fun _ _ _ => trivial
  have hlist : ∀ request s, listItems name request (some f) (tables s) =
      (Columnar.listItems name request (some f) s).map id tables := fun _ _ => rfl
  have hlifted := rounds_lift_pages tables hrounds hkeeps trivial
    fun request _ s _ => hlist request s
  refine ⟨later, found, tables s', hlifted, ?_, fun ids => (hfound ids).trans ?_, ?_,
    fun _ => refused_of_rounds hlifted⟩
  · rintro outcome houtcome
    cases houtcome
  · refine and_congr_right fun _ => ⟨?_, ?_⟩
    · rintro ⟨t, hheld, hcheck, rfl⟩
      have hholding : (tables s).holding? name = some (.table t) := by rw [holding?, hheld]; rfl
      exact ⟨_, _, _, hholding, by rw [Holding.pushDown_table, hcheck]; rfl, trivial, rfl⟩
    · rintro ⟨h, passing, residual, hholding, hpush, -, rfl⟩
      have hstored : (Keyed.get? name s.server.tables).map Holding.table = some h := hholding
      obtain ⟨t, hheld, rfl⟩ := Option.map_eq_some_iff.1 hstored
      rw [Holding.pushDown_table] at hpush
      cases hcheck : Columnar.checkFilter (some f) with
      | error e =>
        rw [hcheck] at hpush
        cases hpush
      | ok u =>
        rw [hcheck] at hpush
        cases hpush
        exact ⟨t, hheld, rfl, rfl⟩
  · rintro - ids hids
    obtain ⟨-, t, hheld, -, rfl⟩ := (hfound ids).1 hids
    exact (hs name t hheld).nodup_items.sublist (List.filter_sublist.map _)

/-- **A walk for ids comes to an end on every connection that calls have led to.** -/
theorem exists_findsIds {c : Connection} (hc : c.Used) (name : String) (f : Filter) :
    ∃ later found c', c.FindsIds name f later found c' := by
  cases c with
  | chroma s =>
    have hs : s.server.Numbered := hc.sound_of_own rfl
    exact findsIds_of_family wrapsSearch_chroma Chroma.lawful Chroma.walks hs (fun _ => hs) rfl
      fun held compiled n => by simp [Holding.FitsWalk, Family.Fits]
  | postgres s =>
    have hs : s.server.Ordered := hc.sound_of_own rfl
    exact findsIds_of_family wrapsSearch_postgres Postgres.lawful Postgres.walks hs (fun _ => hs)
      rfl fun held compiled n => by simp [Holding.FitsWalk, Family.Fits]
  | qdrant s =>
    exact findsIds_of_family wrapsSearch_qdrant Qdrant.lawful Qdrant.walks
      (Qdrant.ordered_of_used hc s rfl) hc.sound rfl
      fun held compiled n => by simp [Holding.FitsWalk, Family.Fits]
  | weaviate s =>
    exact findsIds_of_family wrapsSearch_weaviate Weaviate.lawful Weaviate.walks hc.readable
      hc.sound rfl fun held compiled n => by simp [Holding.FitsWalk, Family.Fits]
  | milvus s =>
    exact findsIds_of_family wrapsSearch_milvus Milvus.lawful Milvus.walks trivial hc.sound rfl
      fun held compiled n => Iff.rfl
  | tables s => exact findsIds_of_table (hc.sound_of_own rfl) name f
  | chromaRest | milvusRest | weaviateRest | directory | unsteady =>
    exact (hc.sound_of_own rfl).elim

/-- **Loops that read whole collections come to an end, and leave nothing out.** Reading a
Milvus collection ends after seventeen batches at most, whatever the server is and however many
rows it returns, and every batch begins within the window. From a server in memory it has the
items of all rows that pass, each once and in order, when they are fewer than the window, and
else it fails and has none. Reading a Weaviate class in memory ends with the items of all
objects that pass, however many there are. And on every connection that calls have led to, the
walk for the ids of what passes a filter ends, with all of them or with a page that the
listing refuses. -/
theorem walks_end_with_every_match :
    (∀ {τ : Type} [Milvus.Server τ] (o : Milvus.Opened) (filter : Option Milvus.Expr) (t : τ),
      ∃ later, Rounds (Milvus.readBatch o filter) 0 later t (Milvus.readFrom o filter 0 t) ∧
        later.length ≤ 16 ∧ ∀ offset ∈ 0 :: later, offset < Milvus.window) ∧
    (∀ (o : Milvus.Opened) (filter : Option Milvus.Expr) (m : Milvus.Memory) (s : Milvus.Stored),
      Keyed.get? o.name m.collections = some s → Milvus.readFrom o filter 0 m =
        (if (s.passing filter).length < Milvus.window then
          .ok ((s.passing filter).map (Milvus.itemOf o.schema))
        else .error (.limitExceeded
          s!"Milvus queries stop at {Milvus.window} rows, narrow the filter"), m)) ∧
    (∀ (m : Weaviate.Memory) (o : Weaviate.Class) (filter : Option Weaviate.Where), ∃ later,
      Rounds (Weaviate.readBatch o filter) 0 later m
        (Weaviate.readFrom o filter (Weaviate.Server.rounds m) 0 m) ∧
      ∀ s, Keyed.get? o.name m.classes = some s →
        Weaviate.readFrom o filter (Weaviate.Server.rounds m) 0 m =
          (.ok ((s.passing filter).map Weaviate.Object.toItem), m)) ∧
    ∀ {c : Connection}, c.Used → ∀ name f, ∃ later found c', c.FindsIds name f later found c' := by
  refine ⟨Milvus.rounds_readFrom, fun o filter m s hs => ?_, Weaviate.rounds_readFrom,
    exists_findsIds⟩
  rw [Milvus.readFrom_eq hs (Nat.zero_le _) (Nat.zero_le _), List.drop_zero]

/-- A Weaviate server with two objects. -/
def twoObjects : Weaviate.Memory :=
  (Weaviate.family.adapter.run [.connect, .createCollection "docs" 1 .cosine,
    .addItems "docs" (["a", "b"].map sample)] (.start .empty .empty)).2.server

/-- Two items on servers of each kind, of which a filter lets one pass. -/
theorem walks_end_with_every_match_of_two :
    (∃ later c', (holdingTwo "note-a" "7").Used ∧
      (holdingTwo "note-a" "7").FindsIds "docs" markedB later (.ok ["7"]) c') ∧
    (∃ s, Keyed.get? "docs" (Milvus.holding ["note-a", "7"]).server.collections = some s ∧
      (s.passing none).length = 2 ∧
      Milvus.readFrom ⟨"docs", s.schema⟩ none 0 (Milvus.holding ["note-a", "7"]).server =
        (.ok ((s.passing none).map (Milvus.itemOf s.schema)),
          (Milvus.holding ["note-a", "7"]).server)) ∧
    ∃ s, Keyed.get? s.definition.name twoObjects.classes = some s ∧
      (s.passing none).length = 2 ∧
      Weaviate.readFrom s.definition none (Weaviate.Server.rounds twoObjects) 0 twoObjects =
        (.ok ((s.passing none).map Weaviate.Object.toItem), twoObjects) := by
  obtain ⟨-, hmilvus, hweaviate, hwalks⟩ := walks_end_with_every_match
  refine ⟨?_, ?_, ?_⟩
  · have hused : (holdingTwo "note-a" "7").Used :=
      .perform _ (.perform _ (.fresh fresh_integerKeyed))
    have hids : ((holdingTwo "note-a" "7").filteredIds? "docs" markedB).map (·.1.toOption) =
        some (some ["7"]) := by decide +kernel
    obtain ⟨later, found, c', hfinds⟩ := hwalks hused "docs" markedB
    obtain ⟨outcome, hsearch, hok⟩ := Option.map_eq_some_iff.1 hids
    obtain rfl := hfinds.complete outcome hsearch
    obtain rfl : found = .ok ["7"] := ok_of_toOption hok
    exact ⟨later, c', hused, hfinds⟩
  · have hheld : (Keyed.get? "docs" (Milvus.holding ["note-a", "7"]).server.collections).map
        (fun s => (s.passing none).length) = some 2 := by decide +kernel
    obtain ⟨s, hs, hlength⟩ := Option.map_eq_some_iff.1 hheld
    have hread := hmilvus ⟨"docs", s.schema⟩ none _ s hs
    rw [hlength, if_pos (by decide)] at hread
    exact ⟨s, hs, hlength, hread⟩
  · have hheld : (Keyed.get? (Weaviate.className "docs") twoObjects.classes).map
        (fun s => (s.definition.name, (s.passing none).length)) =
          some (Weaviate.className "docs", 2) := by decide +kernel
    obtain ⟨s, hs, hfacts⟩ := Option.map_eq_some_iff.1 hheld
    obtain ⟨hname, hlength⟩ := Prod.mk.inj hfacts
    rw [← hname] at hs
    obtain ⟨later, -, hread⟩ := hweaviate twoObjects s.definition none
    exact ⟨s, hs, hlength, hread s hs⟩

end Connection

end VectorBridge
