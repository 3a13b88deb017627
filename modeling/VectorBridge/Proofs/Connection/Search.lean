import VectorBridge.Proofs.Columnar.Search
import VectorBridge.Proofs.Connection.FirstItem
/-!
# What a connection finds

A filter is pushed down as far as a server takes it and the rest is left to the
client, so hits are ranked and cut twice. That this does not show is said here of
every connection but those to Milvus, whose servers cut hits at a window of their
own: a search finds the best items among all that pass both parts of the filter.
-/

namespace VectorBridge

/-! ## What servers in memory answer -/

namespace Chroma

/-- Records are ranked by the distance of their collection. -/
theorem searches : storage.Searches (family (τ := Memory)) Memory.Numbered (fun _ => .distance)
    (fun s => s.metric.distance) id where
  reads := readsOnly
  opens := by
    intro m name s hm hs
    have hget : Keyed.get? name m.collections = some s := hs
    have hfind : Server.find name m = (.ok s.info, m) := by
      show (Except.map (·.info) (m.find? name), m) = _
      rw [Memory.find?, hget]
      rfl
    have hread : ∀ {α : Type} (f : Stored → α), Memory.reading s.info.id f m = (.ok (f s), m) := by
      intro α f
      rw [Memory.reading, Call.read_apply, hm.withId? hget]
      rfl
    have hitems : ∀ filter, storage.passing s filter =
        s.records.filter fun item => passes filter item.metadata := fun _ => List.map_id _
    have hfirst : Server.get s.info.id { Selection.all with limit := some 1 } m = _ := hread _
    refine ⟨s.info, _, Step.bind_of_ok hfind _, rfl, hread _, ⟨_, rfl⟩,
      ⟨_, Step.bind_of_ok hfirst _⟩, fun limit filter vectors => ?_⟩
    rw [hitems]
    exact hread _

end Chroma

namespace Qdrant

/-- Points are ranked by the distance of their collection, which may be a similarity. -/
theorem searches : storage.Searches family (fun _ => True) (fun s => s.distance.ranking)
    (fun s => s.distance.score) id where
  reads := readsOnly
  opens := by
    intro m name s _ hs
    have hread : ∀ {α : Type} (f : Stored → α), Memory.reading name f m = (.ok (f s), m) :=
      fun f => Call.toAction_eq_ok_iff.1 (reading_apply hs f)
    refine ⟨_, _, hread _, rfl, hread _, ⟨_, hread _⟩, ⟨_, hread _⟩,
      fun limit filter vectors => (hread _).trans ?_⟩
    rw [← passing_eq]
    refine congrArg (fun found => (Except.ok found, m)) (List.map_congr_left fun v _ => ?_)
    exact map_top_scored (fun _ => rfl) _ _ _ _

end Qdrant

namespace Postgres

/-- Rows are ranked by the distance of their table. -/
theorem searches : storage.Searches family (fun _ => True) (fun _ => .distance)
    (fun t => t.metric.distance) id where
  reads := readsOnly
  opens := by
    intro m name t _ ht
    have hread : ∀ {α : Type} (f : Table → α), Memory.reading name f m = (.ok (f t), m) :=
      fun f => reading_apply ht f
    refine ⟨_, _, hread _, rfl, hread _, ⟨_, hread _⟩, ⟨_, hread _⟩,
      fun limit filter vectors => ?_⟩
    rw [← passing_eq]
    exact hread _

end Postgres

namespace Weaviate

/-- Vectors are searched for one by one. -/
theorem searchAll_eq {m : Memory} {c : Class} {s : Stored}
    (hs : Keyed.get? c.name m.classes = some s) (limit : Nat) (filter : Option Where)
    (vectors : List Embedding) :
    searchAll c limit filter vectors m =
      (.ok (vectors.map fun v => Ranking.distance.top (·.score) limit
        (hitsOf (s.distance v) (storage.passing s filter))), m) := by
  induction vectors with
  | nil => rfl
  | cons v rest ih =>
    have hnear : Server.near c v limit filter m = (.ok (s.nearest v limit filter), m) :=
      reading_apply hs fun s => s.nearest v limit filter
    have hvector : ∀ o : Object, o.toItem.embedding = o.vector := fun _ => rfl
    rw [searchAll, Step.bind_of_ok hnear, Step.bind_of_ok ih, List.map_cons, passing_eq,
      ← map_top_scored hvector]
    rfl

/-- Objects are ranked by the distance of their class, the Euclidean one squared. -/
theorem searches : storage.Searches (family (τ := Memory)) Memory.Named (fun _ => .distance)
    (fun s => s.distance) id where
  reads := readsOnly
  opens := by
    intro m name s hm hs
    have hget : Keyed.get? (className name) m.classes = some s := hs
    have hname : s.definition.name = className name := hm _ _ hget
    have hnamed : Keyed.get? s.definition.name m.classes = some s := hname ▸ hget
    have hopen : openCollection (τ := Memory) name m = (.ok ⟨name, s.definition⟩, m) :=
      Step.bind_of_ok (reading_apply hget _) _
    have hlist : Server.list s.definition none 0 1 m = _ :=
      reading_apply hnamed fun s => ((s.passing none).drop 0).take 1
    exact ⟨⟨name, s.definition⟩, _, Step.bind_of_ok hopen _, rfl, reading_apply hnamed _,
      ⟨_, rfl⟩, ⟨_, (Step.bind_of_ok (reading_apply hget _) _).trans (Step.bind_of_ok hlist _)⟩,
      searchAll_eq hnamed⟩

end Weaviate

/-! ## Collections of all kinds -/

namespace Holding

/-- Whether small or large scores are better. -/
def ranking : Holding → Ranking
  | qdrant s => s.distance.ranking
  | milvus s => Milvus.ranking s.schema.metric
  | chroma _ | postgres _ | weaviate _ | table _ => .distance

/-- The score of a vector for a query. -/
def score : Holding → Embedding → Embedding → Float32
  | chroma s => s.metric.distance
  | qdrant s => s.distance.score
  | postgres t => t.metric.distance
  | milvus s => s.score
  | weaviate s => s.distance
  | table t => t.metric.distance

/-- What of a collection passes the part of a filter that is pushed down, and the part
that is left to the client. -/
def pushDown (filter : Option Filter) : Holding → Result (List Item × Filter)
  | chroma s => (Chroma.filterCompiler.compile? filter).map fun compiled =>
    (Chroma.storage.passing s compiled.native, compiled.residual)
  | qdrant s => (Qdrant.filterCompiler.compile? filter).map fun compiled =>
    (Qdrant.storage.passing s compiled.native, compiled.residual)
  | postgres t => (Postgres.filterCompiler.compile? filter).map fun compiled =>
    (Postgres.storage.passing t compiled.native, compiled.residual)
  | milvus s => (Milvus.filterCompiler.compile? filter).map fun compiled =>
    (Milvus.storage.passing s compiled.native, compiled.residual)
  | weaviate s => (Weaviate.filterCompiler.compile? filter).map fun compiled =>
    (Weaviate.storage.passing s compiled.native, compiled.residual)
  | table t => (Columnar.filterCompiler.compile? filter).map fun compiled =>
    (t.items, compiled.residual)

/-- Where a search passes over vectors of another width than the query's, there are
none. -/
def Fits (vectors : List Embedding) : Holding → Prop
  | table t => ∀ v ∈ vectors, ∀ item ∈ t.items, ∀ e, item.embedding = some e →
    e.length = v.length
  | chroma _ | qdrant _ | postgres _ | milvus _ | weaviate _ => True

/-- A result is made of the first `k` items in the stable order of their scores for a
vector, best first; each is shown with its own score, without reserved metadata. -/
def IsBest (h : Holding) (k : Nat) (matching : List Item) (v : Embedding)
    (result : QueryResult) : Prop :=
  ∃ sorted, h.ranking.Orders (·.score) (hitsOf (h.score v) matching) sorted ∧
    result = .ofSorted h.ranking ((sorted.take k).map Hit.shown)

/-- What sorting and cutting makes of the hits of items is the best of them. -/
theorem isBest_sort {h : Holding} {matching : List Item} {v : Embedding}
    (hscores : Ranking.Comparable (·.score) (hitsOf (h.score v) matching)) (k : Nat) :
    h.IsBest k matching v (.ofSorted h.ranking
      (((h.ranking.sort (·.score) (hitsOf (h.score v) matching)).take k).map Hit.shown)) :=
  ⟨_, Ranking.orders_sort hscores, rfl⟩

end Holding

/-! ## Connections -/

namespace Connection

/-- The best hits for each vector of a query. -/
def search (name : String) (query : Query) : Action Connection (List QueryResult) := fun c =>
  c.onSession fun A s => A.search name query s

/-- The width of a collection, as a search resolves it. -/
def widthOf (name : String) : Connection → Result Dimension
  | chroma s => (Chroma.family.widthOf name s).1
  | qdrant s => (Qdrant.family.widthOf name s).1
  | postgres s => (Postgres.family.widthOf name s).1
  | milvus s => (Milvus.family.widthOf name s).1
  | weaviate s => (Weaviate.family.widthOf name s).1
  | tables s => (Columnar.resolve name s).1
  | chromaRest _ | milvusRest _ | weaviateRest _ | directory _ | unsteady _ => .ok .unknown

/-- Whether servers rank everything that passes a filter; those of Milvus look through
a window. -/
def ranksAll : Connection → Bool
  | milvus _ | milvusRest _ => false
  | _ => true

/-- The connections that calls lead to from a new one, with widths resolved as they are
by default. -/
inductive Driven : Connection → Prop where
  | fresh {c : Connection} (h : c.Fresh) : Driven c
  | perform {c : Connection} (call : AdapterCall) (h : Driven c) :
      Driven (Connection.perform call c).2

/-- Collections are known by the names and ids that searches ask for. -/
def Searchable : Connection → Prop
  | chroma s => s.server.Numbered
  | weaviate s => s.server.Named
  | _ => True

theorem Used.searchable {c : Connection} (h : c.Used) : c.Searchable := by
  induction h with
  | fresh h =>
    cases h with
    | chroma context => exact ⟨List.Pairwise.nil, nofun, nofun, nofun, nofun⟩
    | weaviate context => exact nofun
    | qdrant | postgres | milvus | tables => trivial
  | @resolving c r h ih => cases c <;> exact ih
  | @perform c call h ih =>
    have hany : call.Admissible fun _ => True := call.admissible_of_forall fun _ => trivial
    cases c with
    | chroma s => exact (Family.keeps Chroma.readsOnly Chroma.guards).perform hany s ih
    | weaviate s => exact (Family.keeps Weaviate.readsOnly Weaviate.guards_named).perform hany s ih
    | chromaRest | qdrant | postgres | milvus | milvusRest | weaviateRest | tables | directory
    | unsteady => trivial

/-- A connection to tables tracks an archive, unless widths are resolved in another way. -/
theorem Driven.tracks {c : Connection} (h : c.Driven) :
    ∀ s, c = .tables s → ∃ a, Columnar.Tracks s a := by
  induction h with
  | fresh h =>
    rintro s rfl
    cases h with
    | tables context => exact ⟨_, Columnar.start_tracks context⟩
  | @perform c call h ih =>
    intro s hs
    cases c with
    | tables s₀ =>
      cases hs
      obtain ⟨a, htracks⟩ := ih s₀ rfl
      exact ⟨_, Columnar.perform_tracks htracks call⟩
    | chroma | chromaRest | qdrant | postgres | milvus | milvusRest | weaviate | weaviateRest
    | directory | unsteady => cases hs

/-- What is learned of widths is remembered. -/
def RemembersWidths : Connection → Prop
  | chroma s => s.dimensions.Remembers
  | qdrant s => s.dimensions.Remembers
  | postgres s => s.dimensions.Remembers
  | weaviate s => s.dimensions.Remembers
  | _ => True

theorem Driven.remembersWidths {c : Connection} (h : c.Driven) : c.RemembersWidths := by
  induction h with
  | fresh h => cases h <;> trivial
  | @perform c call h ih =>
    have hany : call.Admissible fun _ => True := call.admissible_of_forall fun _ => trivial
    cases c with
    | chroma s => exact (Family.keeps_remembers Chroma.readsOnly).perform hany s ih
    | qdrant s => exact (Family.keeps_remembers Qdrant.readsOnly).perform hany s ih
    | postgres s => exact (Family.keeps_remembers Postgres.readsOnly).perform hany s ih
    | weaviate s => exact (Family.keeps_remembers Weaviate.readsOnly).perform hany s ih
    | chromaRest | milvus | milvusRest | weaviateRest | tables | directory | unsteady => trivial

section Family

variable {τ Held Row Handle Condition Fragment : Type} {V : Storage τ Held Row Fragment}
variable {F : Family τ Handle Condition Fragment} {I : τ → Prop} {mk : Session τ → Connection}
variable {inj : Held → Holding}

/-- Sessions are connections of a kind for searches too. -/
structure WrapsSearch (V : Storage τ Held Row Fragment) (F : Family τ Handle Condition Fragment)
    (mk : Session τ → Connection) (inj : Held → Holding) : Prop extends Wraps V F mk inj where
  search : ∀ name query s,
    Connection.search name query (mk s) = (F.search name query s).map id mk := by intros; rfl
  isConnected : ∀ s, Managed.isConnected (mk s) = s.connected := by intros; rfl
  widthOf : ∀ name s, (mk s).widthOf name = (F.widthOf name s).1 := by intros; rfl
  pushDown : ∀ filter held, (inj held).pushDown filter =
    (F.compiler.compile? filter).map fun compiled =>
      (V.passing held compiled.native, compiled.residual) := by intros; rfl

variable {s : Session τ} {name : String} {h : Holding} {vectors : List Embedding} {k : Nat}
variable {filter : Option Filter} {passing : List Item} {residual : Filter} {d : Dimension}

/-- Where widths are remembered, the width of a collection that is held resolves. -/
theorem exists_widthOf_of_family (W : WrapsSearch V F mk inj)
    (S : V.Searches F I (fun held => (inj held).ranking) (fun held => (inj held).score) id)
    (hI : I s.server) (hheld : (mk s).holding? ((mk s).serverName name) = some h)
    (hs : s.dimensions.Remembers) : ∃ d, (mk s).widthOf name = .ok d := by
  rw [W.serverName, W.holding?] at hheld
  obtain ⟨held, hstored, -⟩ := Option.map_eq_some_iff.1 hheld
  rw [W.widthOf]
  exact Family.exists_widthOf S hI hstored hs

/-- What a search of a connection finds is what its session finds. -/
theorem search_of_family (W : WrapsSearch V F mk inj)
    (S : V.Searches F I (fun held => (inj held).ranking) (fun held => (inj held).score) id)
    (hI : I s.server) (hconn : Managed.isConnected (mk s) = true)
    (hheld : (mk s).holding? ((mk s).serverName name) = some h)
    (hfilter : h.pushDown filter = .ok (passing, residual)) (hk : 0 < k)
    (hwidth : (mk s).widthOf name = .ok d) (hvectors : ∀ v ∈ vectors, d.check v.length = .ok ())
    (hscores : ∀ v ∈ vectors, Ranking.Comparable (·.score) (hitsOf (h.score v) passing)) :
    ∃ results c', search name ⟨.vectors vectors, k, filter⟩ (mk s) = (.ok results, c') ∧
      List.Forall₂ (h.IsBest k (passing.filter residual.accepts)) vectors results := by
  rw [W.isConnected] at hconn
  rw [W.widthOf] at hwidth
  rw [W.serverName, W.holding?] at hheld
  obtain ⟨held, hstored, rfl⟩ := Option.map_eq_some_iff.1 hheld
  rw [W.pushDown] at hfilter
  cases hcompiled : F.compiler.compile? filter with
  | error e =>
    rw [hcompiled] at hfilter
    cases hfilter
  | ok compiled =>
    rw [hcompiled] at hfilter
    cases hfilter
    obtain ⟨s', hsearch⟩ :=
      Family.search_exact S hI hconn hstored hk hcompiled hwidth hvectors hscores
    refine ⟨_, mk s', by rw [W.search, hsearch]; rfl, ?_⟩
    refine List.forall₂_map_right_iff.2 (List.forall₂_same.2 fun v hv => ?_)
    exact Holding.isBest_sort ((hscores v hv).of_sublist (List.filter_sublist.filterMap _)) k

end Family

variable {c : Connection} {name : String} {h : Holding} {vectors : List Embedding} {k : Nat}
variable {filter : Option Filter} {passing : List Item} {residual : Filter} {d : Dimension}

theorem wrapsSearch_chroma : WrapsSearch Chroma.storage Chroma.family chroma .chroma :=
  { wraps_chroma with }

theorem wrapsSearch_qdrant : WrapsSearch Qdrant.storage Qdrant.family qdrant .qdrant :=
  { wraps_qdrant with }

theorem wrapsSearch_postgres :
    WrapsSearch Postgres.storage Postgres.family postgres .postgres := { wraps_postgres with }

theorem wrapsSearch_weaviate :
    WrapsSearch Weaviate.storage Weaviate.family weaviate .weaviate := { wraps_weaviate with }

/-- With widths resolved as they are by default, every collection that is held has
one. -/
theorem Driven.exists_widthOf (h : c.Driven) (hc : c.Searchable) (hranks : c.ranksAll = true)
    {held : Holding} (hheld : c.holding? (c.serverName name) = some held) :
    ∃ d, c.widthOf name = .ok d := by
  have hremembers := h.remembersWidths
  cases c with
  | chroma s =>
    exact exists_widthOf_of_family wrapsSearch_chroma Chroma.searches hc hheld hremembers
  | qdrant s =>
    exact exists_widthOf_of_family wrapsSearch_qdrant Qdrant.searches trivial hheld hremembers
  | postgres s =>
    exact exists_widthOf_of_family wrapsSearch_postgres Postgres.searches trivial hheld hremembers
  | weaviate s =>
    exact exists_widthOf_of_family wrapsSearch_weaviate Weaviate.searches hc hheld hremembers
  | tables s =>
    have hstored : (Keyed.get? name s.server.tables).map Holding.table = some held := hheld
    obtain ⟨t, hget, -⟩ := Option.map_eq_some_iff.1 hstored
    obtain ⟨a, htracks⟩ := h.tracks s rfl
    obtain ⟨r, hr, -⟩ := htracks.represents.exists_roster hget
    obtain ⟨dimensions, hresolve, -⟩ := Columnar.resolve_of_some htracks hr
    exact ⟨_, congrArg Prod.fst hresolve⟩
  | milvus s => cases hranks
  | chromaRest | milvusRest | weaviateRest | directory | unsteady => cases hheld

/-- **Pushing a filter down does not change what a search finds.** Take any connection
that calls have led to, not to Milvus, a collection there, a filter that can be pushed
down in part and vectors of the width that the collection is known to have. If all
scores are numbers, a search answers with one result for each vector: the first `k`
items, in the stable order of their scores, of all that have a vector and pass both
parts of the filter. Only where widths are resolved in another way than by default is
it asked that this goes well, and of tables that no vector has another width than the
query's. -/
theorem search_finds_best (hc : c.Used) (hconn : Managed.isConnected c = true)
    (hheld : c.holding? (c.serverName name) = some h) (hranks : c.ranksAll = true)
    (hfilter : h.pushDown filter = .ok (passing, residual)) (hk : 1 ≤ k)
    (hwidth : c.Driven ∨ h.Fits vectors ∧ ∃ d, c.widthOf name = .ok d)
    (hvectors : ∀ d, c.widthOf name = .ok d → ∀ v ∈ vectors, d.check v.length = .ok ())
    (hscores : ∀ v ∈ vectors, ∀ hit ∈ hitsOf (h.score v) passing,
      Binary32.isNaN hit.score = false) :
    ∃ results c', search name ⟨.vectors vectors, k, filter⟩ c = (.ok results, c') ∧
      List.Forall₂ (h.IsBest k (passing.filter residual.accepts)) vectors results := by
  have hsearchable := hc.searchable
  obtain ⟨d, hd⟩ : ∃ d, c.widthOf name = .ok d :=
    hwidth.elim (fun hdriven => hdriven.exists_widthOf hsearchable hranks hheld) And.right
  replace hvectors := hvectors d hd
  cases c with
  | chroma s =>
    exact search_of_family wrapsSearch_chroma Chroma.searches hsearchable hconn hheld hfilter hk hd
      hvectors hscores
  | qdrant s =>
    exact search_of_family wrapsSearch_qdrant Qdrant.searches trivial hconn hheld hfilter hk hd
      hvectors hscores
  | postgres s =>
    exact search_of_family wrapsSearch_postgres Postgres.searches trivial hconn hheld hfilter hk hd
      hvectors hscores
  | weaviate s =>
    exact search_of_family wrapsSearch_weaviate Weaviate.searches hsearchable hconn hheld hfilter
      hk hd hvectors hscores
  | tables s =>
    have hstored : (Keyed.get? name s.server.tables).map Holding.table = some h := hheld
    obtain ⟨t, hget, rfl⟩ := Option.map_eq_some_iff.1 hstored
    have hd' : (Columnar.resolve name s).1 = .ok d := hd
    have hfits : (Holding.table t).Fits vectors := by
      refine hwidth.elim (fun hdriven v hv => ?_) And.left
      obtain ⟨a, htracks⟩ := hdriven.tracks s rfl
      exact htracks.length_eq hget hd' (hvectors v hv)
    rw [Holding.pushDown] at hfilter
    cases hcompiled : Columnar.filterCompiler.compile? filter with
    | error e =>
      rw [hcompiled] at hfilter
      cases hfilter
    | ok compiled =>
      rw [hcompiled] at hfilter
      cases hfilter
      obtain ⟨s', hsearch⟩ := Columnar.search_exact hconn hget hk hcompiled hd' hvectors hfits
        hscores
      refine ⟨_, tables s', congrArg (Prod.map id tables) hsearch, ?_⟩
      refine List.forall₂_map_right_iff.2 (List.forall₂_same.2 fun v hv => ?_)
      have hkept : Ranking.Comparable (·.score)
          (hitsOf ((Holding.table t).score v) (compiled.postFilter t.items)) :=
        Ranking.Comparable.of_sublist (hscores v hv) (List.filter_sublist.filterMap _)
      exact Holding.isBest_sort hkept k
  | milvus s => cases hranks
  | chromaRest | milvusRest | weaviateRest | directory | unsteady => cases hheld

/-! ## A filter of which a part is left to the client -/

theorem ok_of_toOption {ε α : Type} {x : Except ε α} {a : α} (h : x.toOption = some a) :
    x = .ok a := by
  cases x with
  | error e => cases h
  | ok b =>
    cases h
    rfl

/-- An item with a number and a mark, at the place of all others. -/
def marked (id : String) (n : Int) (mark : String) : Item :=
  ⟨id, none, [("n", .num (.int n)), ("t", .str mark)], some [Metric.one]⟩

/-- Four items on a Chroma server. -/
def holdingMarked : Connection :=
  (perform (.addItems "docs" [marked "p" 0 "b", marked "q" 1 "a", marked "r" 1 "b",
    marked "s" 1 "b"]) (chroma (.start .empty .empty)).prepared).2

/-- The filter for positive numbers, which the server evaluates, and the mark `b`, which
it does not. -/
def positiveB : Filter := ⟨[⟨"n", .gt, .num (.int 0)⟩, ⟨"t", .contains, .str "b"⟩]⟩

/-- Three items pass on the server, one of them not the residual, and of the two that
are left, which lie equally far, the first is found. -/
theorem search_finds_best_of_positive_b :
    ∃ h passing residual results c', holdingMarked.Used ∧
      holdingMarked.holding? (holdingMarked.serverName "docs") = some h ∧
      h.pushDown (some positiveB) = .ok (passing, residual) ∧ residual.isEmpty = false ∧
      passing.map (·.id) = ["q", "r", "s"] ∧ holdingMarked.widthOf "docs" = .ok (.known 1) ∧
      search "docs" ⟨.vectors [[Metric.one]], 1, some positiveB⟩ holdingMarked =
        (.ok results, c') ∧
      results.map (·.ids) = [["r"]] ∧
      List.Forall₂ (h.IsBest 1 (passing.filter residual.accepts)) [[Metric.one]] results := by
  have hpushed : ((holdingMarked.holding? (holdingMarked.serverName "docs")).bind fun h =>
      (h.pushDown (some positiveB)).toOption.map fun (passing, residual) =>
        (residual.isEmpty, passing.map (·.id),
          (hitsOf (h.score [Metric.one]) passing).all fun hit => !Binary32.isNaN hit.score)) =
      some (false, ["q", "r", "s"], true) := by decide +kernel
  have hfound : (search "docs" ⟨.vectors [[Metric.one]], 1, some positiveB⟩
      holdingMarked).1.toOption.map (fun results => results.map (·.ids)) = some [["r"]] := by
    decide +kernel
  have hwidth : holdingMarked.widthOf "docs" = .ok (.known 1) :=
    ok_of_toOption (by decide +kernel)
  have hconn : Managed.isConnected holdingMarked = true := by decide +kernel
  have hranks : holdingMarked.ranksAll = true := by decide +kernel
  have hdriven : holdingMarked.Driven := .perform _ (.perform _ (.perform _ (.fresh (.chroma _))))
  have hused : holdingMarked.Used := .perform _ (Fresh.chroma _).used_prepared
  have hvectors : ∀ d, holdingMarked.widthOf "docs" = .ok d → ∀ v ∈ [[Metric.one]],
      d.check v.length = .ok () := by
    intro d hd v hv
    rw [hwidth] at hd
    cases hd
    rw [List.mem_singleton.1 hv]
    rfl
  obtain ⟨h, hheld, hsplit⟩ := Option.bind_eq_some_iff.1 hpushed
  obtain ⟨⟨passing, residual⟩, hok, hfacts⟩ := Option.map_eq_some_iff.1 hsplit
  have hfilter := ok_of_toOption hok
  obtain ⟨hresidual, hids, hnumbers⟩ : residual.isEmpty = false ∧ passing.map (·.id) = _ ∧ _ := by
    simpa using hfacts
  have hscores : ∀ v ∈ [[Metric.one]], ∀ hit ∈ hitsOf (h.score v) passing,
      Binary32.isNaN hit.score = false := by
    intro v hv
    rw [List.mem_singleton.1 hv]
    exact hnumbers
  obtain ⟨results, c', hsearch, hbest⟩ := search_finds_best hused hconn hheld hranks hfilter
    (Nat.le_refl 1) (.inl hdriven) hvectors hscores
  rw [hsearch] at hfound
  exact ⟨h, passing, residual, results, c', hused, hheld, hfilter, hresidual, hids, hwidth, hsearch,
    Option.some.inj hfound, hbest⟩

end Connection

end VectorBridge
