import VectorBridge.Proofs.Connection.Search
/-!
# Searches through a window

A search asks a Milvus server for its nearest rows, and however many these are to be, it
asks for no more than fit into the window. Where the client filters on, that is before the
residual is applied, so a row that passes the whole filter is lost when a window full of
rows that pass only the expression is nearer. A result is the best of what stands within
the window: the matching rows in stable order without the ones that are lost.
-/

namespace VectorBridge

namespace Milvus

variable {m : Memory} {name : String} {s : Stored} {c : Opened} {k : Nat} {v : Embedding}
variable {compiled : CompiledFilter Expr}

namespace Stored

/-- The hits of the rows that pass an expression, in the order of the rows. -/
def hits (s : Stored) (fragment : Option Expr) (v : Embedding) : List Hit :=
  (s.passing fragment).filterMap fun row =>
    (vectorOf? row s.schema.vectorField).map fun e => ⟨itemOf s.schema row, s.score v e⟩

/-- The hits of the rows that pass both parts of a filter. -/
def matching (s : Stored) (compiled : CompiledFilter Expr) (v : Embedding) : List Hit :=
  (s.hits compiled.native v).filter fun hit => compiled.residual.accepts hit.item

/-- A result is made of the first `k` hits of the rows that pass both parts of a filter, in
the stable order of their scores, best first. -/
def IsBest (s : Stored) (k : Nat) (compiled : CompiledFilter Expr) (v : Embedding)
    (result : QueryResult) : Prop :=
  ∃ sorted, (ranking s.schema.metric).Orders (·.score) (s.matching compiled v) sorted ∧
    result = .ofSorted (ranking s.schema.metric) ((sorted.take k).map Hit.shown)

/-- The hits of the rows that pass an expression, best first. -/
def ranked (s : Stored) (fragment : Option Expr) (v : Embedding) : List Hit :=
  (ranking s.schema.metric).sort (·.score) (s.hits fragment v)

/-- What passes the residual of the ranked hits within the window. -/
def inWindow (s : Stored) (compiled : CompiledFilter Expr) (v : Embedding) : List Hit :=
  ((s.ranked compiled.native v).take window).filter fun hit => compiled.residual.accepts hit.item

/-- What passes the residual of the ranked hits behind the window. -/
def behindWindow (s : Stored) (compiled : CompiledFilter Expr) (v : Embedding) : List Hit :=
  ((s.ranked compiled.native v).drop window).filter fun hit => compiled.residual.accepts hit.item

/-- The hits that are lost: where fewer than `k` matching hits stand within the window, the
ones behind it that would make up for them. -/
def lost (s : Stored) (k : Nat) (compiled : CompiledFilter Expr) (v : Embedding) : List Hit :=
  (s.behindWindow compiled v).take (k - (s.inWindow compiled v).length)

theorem length_hits_le (s : Stored) (fragment : Option Expr) (v : Embedding) :
    (s.hits fragment v).length ≤ s.rows.length :=
  Nat.le_trans (List.length_filterMap_le _ _) (List.length_filter_le _ _)

theorem length_ranked (s : Stored) (fragment : Option Expr) (v : Embedding) :
    (s.ranked fragment v).length = (s.hits fragment v).length :=
  ((ranking s.schema.metric).sort_perm _ _).length_eq

/-- What the server is asked for, finished by the client, is the first `k` of what passes the
residual within the window. -/
theorem finishHits_eq (hscores : Ranking.Comparable (·.score) (s.hits compiled.native v)) :
    finishHits (ranking s.schema.metric) ((ranking s.schema.metric).top (·.score)
        (min (searchLimit compiled.residual k s.rows.length) window) (s.hits compiled.native v))
        compiled.residual k =
      .ofSorted (ranking s.schema.metric) (((s.inWindow compiled v).take k).map Hit.shown) := by
  rw [finishHits_of_top hscores, ← ranked, inWindow, searchLimit]
  congr 2
  cases hempty : compiled.residual.isEmpty with
  | true =>
    rw [if_pos rfl, filter_accepts_of_isEmpty hempty, filter_accepts_of_isEmpty hempty,
      List.take_take, List.take_take]
    congr 1
    omega
  | false =>
    -- the server is asked for as many hits as there are rows, as far as the window goes
    have hlength : (s.ranked compiled.native v).length ≤ max s.rows.length k := by
      have hrows := s.length_hits_le compiled.native v
      rw [length_ranked]
      omega
    rw [if_neg Bool.false_ne_true, Nat.min_comm, ← List.take_take,
      List.take_of_length_le hlength]

/-- The matching hits stand in stable order within the window and behind it. -/
theorem orders_matching (hscores : Ranking.Comparable (·.score) (s.hits compiled.native v)) :
    (ranking s.schema.metric).Orders (·.score) (s.matching compiled v)
      (s.inWindow compiled v ++ s.behindWindow compiled v) := by
  rw [inWindow, behindWindow, ← List.filter_append, List.take_append_drop, ranked,
    Ranking.filter_sort_eq hscores]
  exact Ranking.orders_sort (hscores.of_sublist List.filter_sublist)

/-- A result of the first hits within the window is the best exactly when none is lost. -/
theorem isBest_iff (hscores : Ranking.Comparable (·.score) (s.hits compiled.native v)) :
    s.IsBest k compiled v (.ofSorted (ranking s.schema.metric)
      (((s.inWindow compiled v).take k).map Hit.shown)) ↔ s.lost k compiled v = [] := by
  have horders : (ranking s.schema.metric).Orders (·.score) (s.matching compiled v)
      (s.inWindow compiled v ++ s.behindWindow compiled v) := orders_matching hscores
  have hmatching : Ranking.Comparable (·.score) (s.matching compiled v) :=
    hscores.of_sublist List.filter_sublist
  constructor
  · rintro ⟨sorted, hsorted, hresult⟩
    obtain rfl := (hsorted.eq_sort hmatching).trans (horders.eq_sort hmatching).symm
    -- a result tells how many hits it shows
    have hlength := congrArg (fun result => result.ids.length) hresult
    simp only [QueryResult.ofSorted, List.length_map, List.take_append, List.length_append]
      at hlength
    exact List.length_eq_zero_iff.1 (by rw [lost]; omega)
  · intro hnone
    refine ⟨_, horders, ?_⟩
    rw [List.take_append, show (s.behindWindow compiled v).take _ = [] from hnone,
      List.append_nil]

/-- Nothing is lost where at most a window of hits passes the expression, or where no residual
is left and no more than a window of hits is asked for. -/
theorem lost_eq_nil (h : (s.hits compiled.native v).length ≤ window ∨
    compiled.isComplete = true ∧ k ≤ window) : s.lost k compiled v = [] := by
  rcases h with hall | ⟨hcomplete, hk⟩
  · rw [lost, behindWindow, List.drop_of_length_le (by rw [length_ranked]; exact hall)]
    exact List.take_nil
  · rw [lost, inWindow, behindWindow, filter_accepts_of_isEmpty hcomplete,
      filter_accepts_of_isEmpty hcomplete]
    -- a window that is not full has nothing behind it
    refine List.length_eq_zero_iff.1 ?_
    rw [List.length_take, List.length_drop, List.length_take]
    omega

end Stored

/-! ## What a search finds -/

/-- Vectors are searched for one by one. -/
theorem searchAll_eq (hs : Keyed.get? c.name m.collections = some s) (hc : c.schema = s.schema)
    (limit : Nat) (fragment : Option Expr) (vectors : List Embedding) :
    searchAll c limit fragment vectors m =
      (.ok (vectors.map fun v =>
        (ranking s.schema.metric).top (·.score) limit (s.hits fragment v)), m) := by
  induction vectors with
  | nil => rfl
  | cons v rest ih =>
    have hnear : Server.search c.name c.schema.vectorField v limit fragment m =
        (.ok (s.nearest s.schema.vectorField v limit fragment), m) := by
      rw [hc]
      show (Except.map _ (m.find? c.name), m) = _
      rw [Memory.find?, hs]
      rfl
    have hscore : ∀ scored : Row × Float32,
        (⟨itemOf s.schema scored.1, scored.2⟩ : Hit).score = scored.2 := fun _ => rfl
    rw [searchAll, Step.bind_of_ok hnear, Step.bind_of_ok ih, List.map_cons, Stored.hits,
      Stored.nearest, hc, Step.pure_apply,
      ← (ranking s.schema.metric).top_map (·.score) hscore limit, List.map_filterMap]
    simp only [Option.map_map]
    rfl

/-- What a search answers is what stands within the window. -/
theorem search_eq {t : Session Memory} {vectors : List Embedding} {filter : Option Filter}
    {d : Dimension} (hconn : t.connected = true)
    (hheld : Keyed.get? name t.server.collections = some s)
    (hcompiled : filterCompiler.compile? filter = .ok compiled) (hk : 1 ≤ k)
    (hwidth : (family.widthOf name t).1 = .ok d)
    (hvectors : ∀ v ∈ vectors, d.check v.length = .ok ())
    (hscores : ∀ v ∈ vectors, Ranking.Comparable (·.score) (s.hits compiled.native v)) :
    ∃ t', family.search name ⟨.vectors vectors, k, filter⟩ t =
      (.ok (vectors.map fun v => .ofSorted (ranking s.schema.metric)
        (((s.inWindow compiled v).take k).map Hit.shown)), t') := by
  have hread : ∀ {α : Type} (f : Stored → α),
      Memory.reading name f t.server = (.ok (f s), t.server) := by
    intro α f
    rw [Memory.reading, Call.read_apply, Memory.find?, hheld]
    rfl
  have hinspect : family.inspect name t.server = (.ok ((⟨name, s.schema⟩ : Opened),
      ⟨ranking s.schema.metric, s.schema.metric, s.schema.dimension⟩), t.server) :=
    Step.bind_of_ok (Step.bind_of_ok (hread Stored.schema) _) _
  obtain ⟨t', hsearch⟩ := Family.search_of_nearest (F := family (τ := Memory)) readsOnly hconn
    hinspect (hread fun s => s.rows.length)
    (fun limit fragment vectors => searchAll_eq hheld rfl (min limit window) fragment vectors)
    hk hcompiled hwidth hvectors
  refine ⟨t', hsearch.trans ?_⟩
  rw [List.map_congr_left fun v hv => Stored.finishHits_eq (hscores v hv)]

/-- **A search finds the best of what the window has room for.** Take any collection, any
filter that can be compiled and vectors of the width that the collection is known to have.
If all scores are numbers, a search answers with one result for each vector: the first `k`
hits, in the stable order of their scores, of the rows that pass both parts of the filter,
without those that are lost. It is the best there is exactly when none is lost. -/
theorem search_finds_best_in_window {t : Session Memory} {vectors : List Embedding}
    {filter : Option Filter} {d : Dimension} (hconn : t.connected = true)
    (hheld : Keyed.get? name t.server.collections = some s)
    (hcompiled : filterCompiler.compile? filter = .ok compiled) (hk : 1 ≤ k)
    (hwidth : (family.widthOf name t).1 = .ok d)
    (hvectors : ∀ v ∈ vectors, d.check v.length = .ok ())
    (hscores : ∀ v ∈ vectors, ∀ hit ∈ s.hits compiled.native v,
      Binary32.isNaN hit.score = false) :
    ∃ results t', family.search name ⟨.vectors vectors, k, filter⟩ t = (.ok results, t') ∧
      List.Forall₂ (fun v result =>
        (∃ sorted found, (ranking s.schema.metric).Orders (·.score) (s.matching compiled v) sorted ∧
          sorted.take k = found ++ s.lost k compiled v ∧
          result = .ofSorted (ranking s.schema.metric) (found.map Hit.shown)) ∧
        (s.IsBest k compiled v result ↔ s.lost k compiled v = [])) vectors results := by
  obtain ⟨t', hsearch⟩ := search_eq hconn hheld hcompiled hk hwidth hvectors hscores
  refine ⟨_, t', hsearch, List.forall₂_map_right_iff.2 (List.forall₂_same.2 fun v hv => ?_)⟩
  exact ⟨⟨_, _, Stored.orders_matching (hscores v hv), List.take_append, rfl⟩,
    Stored.isBest_iff (hscores v hv)⟩

/-- A session with a collection that has no rows yet. -/
def prepared : Session Memory :=
  (family.adapter.perform (.createCollection "docs" 1 .cosine)
    (family.adapter.perform .connect (.start .empty .empty)).2).2

/-- A session with four rows, each with a number and a mark. -/
def holdingMarked : Session Memory :=
  (family.adapter.perform (.addItems "docs" [Connection.marked "p" 0 "b",
    Connection.marked "q" 1 "a", Connection.marked "r" 1 "b", Connection.marked "s" 1 "b"])
    prepared).2

/-- Three rows pass the expression, one of them not the residual, and of the two that are
left, which are equally near, the first is found. -/
theorem search_finds_best_in_window_of_positive_b :
    ∃ (s : Stored) (compiled : CompiledFilter Expr) (results : List QueryResult)
      (t' : Session Memory), holdingMarked.connected = true ∧
      Keyed.get? "docs" holdingMarked.server.collections = some s ∧
      filterCompiler.compile? (some Connection.positiveB) = .ok compiled ∧
      (family.widthOf "docs" holdingMarked).1 = .ok (.known 1) ∧
      compiled.residual.isEmpty = false ∧
      (s.hits compiled.native [Metric.one]).map (·.item.id) = ["q", "r", "s"] ∧
      s.lost 1 compiled [Metric.one] = [] ∧
      family.search "docs" ⟨.vectors [[Metric.one]], 1, some Connection.positiveB⟩ holdingMarked =
        (.ok results, t') ∧
      results.map (·.ids) = [["r"]] ∧
      List.Forall₂ (s.IsBest 1 compiled) [[Metric.one]] results := by
  have hfacts : ((Keyed.get? "docs" holdingMarked.server.collections).bind fun s =>
      (filterCompiler.compile? (some Connection.positiveB)).toOption.map fun compiled =>
        (compiled.residual.isEmpty, (s.hits compiled.native [Metric.one]).map (·.item.id),
          (s.hits compiled.native [Metric.one]).all fun hit => !Binary32.isNaN hit.score)) =
      some (false, ["q", "r", "s"], true) := by decide +kernel
  have hfound : (family.search "docs" ⟨.vectors [[Metric.one]], 1, some Connection.positiveB⟩
      holdingMarked).1.toOption.map (fun results => results.map (·.ids)) = some [["r"]] := by
    decide +kernel
  have hwidth : (family.widthOf "docs" holdingMarked).1 = .ok (.known 1) :=
    Connection.ok_of_toOption (by decide +kernel)
  obtain ⟨s, hheld, hsplit⟩ := Option.bind_eq_some_iff.1 hfacts
  obtain ⟨compiled, hok, hsplit⟩ := Option.map_eq_some_iff.1 hsplit
  have hcompiled := Connection.ok_of_toOption hok
  obtain ⟨hresidual, hids, hnumbers⟩ : compiled.residual.isEmpty = false ∧
      (s.hits compiled.native [Metric.one]).map (·.item.id) = _ ∧ _ := by
    simpa using hsplit
  have hvectors : ∀ v ∈ [[Metric.one]], (Dimension.known 1).check v.length = .ok () :=
    List.forall_mem_singleton.2 rfl
  obtain ⟨results, t', hsearch, hbest⟩ := search_finds_best_in_window rfl hheld hcompiled
    (Nat.le_refl 1) hwidth hvectors (List.forall_mem_singleton.2 hnumbers)
  have hlost : s.lost 1 compiled [Metric.one] = [] := by
    have hthree := congrArg List.length hids
    rw [List.length_map] at hthree
    refine Stored.lost_eq_nil (.inl ?_)
    rw [hthree]
    decide
  have hnoneLost : List.Forall₂ (s.IsBest 1 compiled) [[Metric.one]] results := by
    cases hbest with
    | cons hfirst hrest =>
      cases hrest
      exact .cons (hfirst.2.2 hlost) .nil
  rw [hsearch] at hfound
  exact ⟨s, compiled, results, t', rfl, hheld, hcompiled, hwidth, hresidual, hids, hlost, hsearch,
    Option.some.inj hfound, hnoneLost⟩

/-! ## A crowd of rows that are equally near -/

/-- The schema of the crowd's collection. -/
def crowdSchema : Schema := { Schema.plain with dimension := some 1, metric := .cosine }

/-- The item of a number. All have one vector, and those within the window one document. -/
def crowdItem (i : Nat) : Item :=
  ⟨toString i, some (if i < window then "other" else "last"), [], some [Metric.one]⟩

/-- The row of a number. -/
def crowdRow (i : Nat) : Row :=
  [(documentFieldName, .str (if i < window then "other" else "last")),
    (vectorFieldName, Embedding.toJson [Metric.one]), (primaryFieldName, .str (toString i))]

/-- The rows of the first numbers. -/
def crowdRows (n : Nat) : List Row := (List.range n).map crowdRow

/-- The collection that has them. -/
def crowdStored (n : Nat) : Stored := ⟨crowdSchema, crowdRows n⟩

theorem crowdRows_succ (n : Nat) : crowdRows (n + 1) = crowdRows n ++ [crowdRow n] := by
  rw [crowdRows, List.range_succ, List.map_append, List.map_singleton, crowdRows]

/-- A session whose server has a collection of some rows. -/
def crowd (rows : List Row) : Session Memory :=
  { server := ⟨[("docs", ⟨crowdSchema, rows⟩)]⟩, context := .empty,
    dimensions := .cached [("docs", 1)], listings := [], connected := true, requests := [] }

/-- The session after the items of the first numbers have been added, one at a time. -/
def crowded (n : Nat) : Session Memory :=
  (List.range n).foldl (fun t i => (family.adapter.perform (.addItems "docs" [crowdItem i]) t).2)
    prepared

/-- A row of a new number goes to the end. -/
theorem place_crowdRow (n : Nat) :
    place primaryFieldName (crowdRow n) (crowdRows n) = crowdRows n ++ [crowdRow n] := by
  have hkey : ∀ i, Keyed.get? primaryFieldName (crowdRow i) = some (.str (toString i)) :=
    fun _ => rfl
  have hsame : ∀ row ∈ crowdRows n,
      sameKey (Keyed.get? primaryFieldName row) (Keyed.get? primaryFieldName (crowdRow n)) = true ↔
        Keyed.get? primaryFieldName row = Keyed.get? primaryFieldName (crowdRow n) := by
    intro row hrow
    obtain ⟨i, -, rfl⟩ := List.mem_map.1 hrow
    rw [hkey, hkey]
    simp [sameKey]
  rw [place_eq]
  refine placeBy.eq_append hsame fun hmem => ?_
  obtain ⟨row, hrow, heq⟩ := List.mem_map.1 hmem
  obtain ⟨i, hi, rfl⟩ := List.mem_map.1 hrow
  rw [hkey, hkey] at heq
  have hnumber : i = n := Nat.repr_injective (Json.str.inj (Option.some.inj heq))
  exact absurd (List.mem_range.1 hi) (by omega)

/-- An item of a new number is added as the last row. -/
theorem addItems_crowd (n : Nat) :
    family.addItems "docs" [crowdItem n] (crowd (crowdRows n)) =
      (.ok (), crowd (crowdRows (n + 1))) := by
  have hids : Batch.checkIds [crowdItem n] = .ok () := by
    have hempty : (toString n).isEmpty = false := by
      rw [Bool.eq_false_iff, ne_eq, String.isEmpty_iff, ← String.toList_eq_nil_iff]
      exact Text.toString_toList_ne_nil n
    rw [Batch.checkIds, Batch.checkIdsAfter, show (crowdItem n).id = toString n from rfl, hempty]
    rfl
  have hwrite : family.write ⟨"docs", crowdSchema⟩ [crowdItem n]
      (crowd (crowdRows n)).server =
      (.ok (), (crowd (crowdRows (n + 1))).server) := by
    rw [crowdRows_succ, ← place_crowdRow]
    rfl
  generalize crowdRows n = rows at hwrite ⊢
  -- the checks do not depend on the number, and the width is remembered
  have hattach : Session.call ((family (τ := Memory)).attach "docs") (crowd rows) =
      (.ok ⟨"docs", crowdSchema⟩, crowd rows) := rfl
  have hembed : Session.embedding (fun c => Batch.embedMissing c "docs" none [crowdItem n])
      (crowd rows) = (.ok [crowdItem n], crowd rows) := rfl
  have hvectors : (family (τ := Memory)).checkVectors [crowdItem n] = .ok () := rfl
  have hresolve : (family (τ := Memory)).resolve ⟨"docs", crowdSchema⟩ (crowd rows) =
      (.ok (.known 1), crowd rows) := rfl
  have hwidths : Batch.checkDimensions (.known 1) [crowdItem n] = .ok (some 1) := rfl
  have hput : Session.onServer (family.write ⟨"docs", crowdSchema⟩ [crowdItem n]) (crowd rows) =
      (.ok (), crowd (crowdRows (n + 1))) := by
    rw [Session.onServer_apply, hwrite]
    rfl
  rw [Family.addItems, Session.ensureConnected_bind rfl, List.isEmpty_cons,
    if_neg Bool.false_ne_true, Action.ofResult_bind_of_ok hids]
  refine (Action.ofResult_bind_of_ok rfl _).trans ((Step.bind_of_ok hattach _).trans
    ((Step.bind_of_ok hembed _).trans ((Action.ofResult_bind_of_ok hvectors _).trans
    ((Step.bind_of_ok hresolve _).trans ((Action.ofResult_bind_of_ok hwidths _).trans ?_)))))
  exact Step.bind_of_ok hput _

/-- After the items of the first numbers have been added their rows are stored. -/
theorem crowded_eq (n : Nat) : crowded n = crowd (crowdRows n) := by
  induction n with
  | zero => rfl
  | succ n ih =>
    have hadd : ((family (τ := Memory)).adapter.perform (.addItems "docs" [crowdItem n])
        (crowded n)).2 = (family.addItems "docs" [crowdItem n] (crowded n)).2 :=
      Step.snd_then_pure _ _ _
    rw [ih, addItems_crowd] at hadd
    rw [crowded, List.range_succ, List.foldl_append, ← crowded, List.foldl_cons, List.foldl_nil,
      ih, hadd]

/-- Calls lead to the crowd. -/
theorem driven_crowded (n : Nat) : (Connection.milvus (crowded n)).Driven := by
  induction n with
  | zero =>
    exact .perform (.createCollection "docs" 1 .cosine)
      (.perform .connect (.fresh (.milvus .empty .empty)))
  | succ n ih =>
    rw [crowded, List.range_succ, List.foldl_append]
    exact .perform (.addItems "docs" [crowdItem n]) ih

/-- The filter for the one document that the rows within the window do not have. -/
def lastOnly : Filter := ⟨[⟨"document", .contains, .str "last"⟩]⟩

theorem accepts_crowdRow (i : Nat) :
    lastOnly.accepts (itemOf crowdSchema (crowdRow i)) = !decide (i < window) := by
  unfold crowdRow
  by_cases hi : i < window
  · rw [if_pos hi, decide_eq_true hi]
    rfl
  · rw [if_neg hi, decide_eq_false hi]
    rfl

/-- The hit of a number, for the vector that all rows have. -/
def crowdHit (i : Nat) : Hit :=
  ⟨itemOf crowdSchema (crowdRow i), Metric.cosine.similarity [Metric.one] [Metric.one]⟩

theorem id_crowdHit (i : Nat) : (crowdHit i).item.id = toString i := rfl

theorem hits_crowdStored (n : Nat) :
    (crowdStored n).hits none [Metric.one] = (List.range n).map crowdHit := by
  have hpassing : (crowdStored n).passing none = crowdRows n :=
    List.filter_eq_self.2 fun _ _ => rfl
  have hone : Embedding.ofNumbers [Json.ofFloat32 Metric.one] = [Metric.one] := by decide +kernel
  have hvector : ∀ i, vectorOf? (crowdRow i) crowdSchema.vectorField = some [Metric.one] :=
    fun _ => congrArg some hone
  have hhit : ∀ i, ((vectorOf? (crowdRow i) crowdSchema.vectorField).map fun e =>
      (⟨itemOf crowdSchema (crowdRow i), (crowdStored n).score [Metric.one] e⟩ : Hit)) =
      some (crowdHit i) := fun i => by rw [hvector]; rfl
  rw [Stored.hits, hpassing, crowdRows, List.filterMap_map, ← List.filterMap_eq_map]
  exact congrArg (List.filterMap · (List.range n)) (funext hhit)

theorem comparable_crowd (n : Nat) :
    Ranking.Comparable (·.score) ((crowdStored n).hits none [Metric.one]) := by
  have hscore : Binary32.isNaN (Metric.cosine.similarity [Metric.one] [Metric.one]) = false := by
    decide +kernel
  intro hit hhit
  rw [hits_crowdStored] at hhit
  obtain ⟨i, -, rfl⟩ := List.mem_map.1 hhit
  exact hscore

/-- Hits of one score are ranked as they come. -/
theorem ranked_crowdStored (n : Nat) :
    (crowdStored n).ranked none [Metric.one] = (List.range n).map crowdHit := by
  rw [Stored.ranked, Ranking.sort_of_pairwise (comparable_crowd n), hits_crowdStored]
  rw [hits_crowdStored]
  exact List.pairwise_map.2 (List.pairwise_of_forall fun _ _ => Int.le_refl _)

/-- Within the window nothing passes the filter. -/
theorem inWindow_crowdStored :
    (crowdStored (window + 1)).inWindow ⟨none, lastOnly⟩ [Metric.one] = [] := by
  rw [Stored.inWindow, ranked_crowdStored, ← List.map_take, List.take_range,
    List.filter_eq_nil_iff]
  intro hit hhit
  obtain ⟨i, hi, rfl⟩ := List.mem_map.1 hhit
  have hwithin : i < window := by
    have := List.mem_range.1 hi
    omega
  rw [show lastOnly.accepts (crowdHit i).item = _ from accepts_crowdRow i, decide_eq_true hwithin]
  decide

/-- Behind the window stands the one row that does. -/
theorem behindWindow_crowdStored :
    (crowdStored (window + 1)).behindWindow ⟨none, lastOnly⟩ [Metric.one] = [crowdHit window] := by
  have hpasses : lastOnly.accepts (crowdHit window).item = true :=
    (accepts_crowdRow window).trans (by rw [decide_eq_false (Nat.lt_irrefl _)]; rfl)
  rw [Stored.behindWindow, ranked_crowdStored, ← List.map_drop, List.range_succ,
    List.drop_left' List.length_range, List.map_singleton]
  exact List.filter_cons_of_pos hpasses

/-- A window full of rows is as near as the one row that passes the filter, and was there
before it: the search finds nothing. -/
theorem search_loses_row_behind_window :
    ∃ (t t' : Session Memory) (s : Stored) (compiled : CompiledFilter Expr)
      (results : List QueryResult), (Connection.milvus t).Driven ∧ t.connected = true ∧
      Keyed.get? "docs" t.server.collections = some s ∧
      filterCompiler.compile? (some lastOnly) = .ok compiled ∧
      (family.widthOf "docs" t).1 = .ok (.known [Metric.one].length) ∧
      (∀ hit ∈ s.hits compiled.native [Metric.one], Binary32.isNaN hit.score = false) ∧
      family.search "docs" ⟨.vectors [[Metric.one]], 1, some lastOnly⟩ t = (.ok results, t') ∧
      results.map (·.ids) = [[]] ∧
      (s.matching compiled [Metric.one]).map (·.item.id) = [toString window] ∧
      ¬ List.Forall₂ (s.IsBest 1 compiled) [[Metric.one]] results := by
  have hcompiled : filterCompiler.compile? (some lastOnly) = .ok ⟨none, lastOnly⟩ := rfl
  have hheld : Keyed.get? "docs" (crowd (crowdRows (window + 1))).server.collections =
      some (crowdStored (window + 1)) := rfl
  have hwidth : (family.widthOf "docs" (crowd (crowdRows (window + 1)))).1 =
      .ok (.known 1) := rfl
  have hscores : Ranking.Comparable (·.score) ((crowdStored (window + 1)).hits
      (CompiledFilter.mk none lastOnly).native [Metric.one]) := comparable_crowd _
  have hvectors : ∀ v ∈ [[Metric.one]], (Dimension.known 1).check v.length = .ok () :=
    List.forall_mem_singleton.2 rfl
  obtain ⟨t', hsearch⟩ := search_eq rfl hheld hcompiled (Nat.le_refl 1) hwidth hvectors
    (List.forall_mem_singleton.2 hscores)
  rw [List.map_singleton, inWindow_crowdStored] at hsearch
  have hnotBest : ¬ (crowdStored (window + 1)).IsBest 1 ⟨none, lastOnly⟩ [Metric.one]
      (.ofSorted .similarity []) := by
    have hiff := Stored.isBest_iff (k := 1) hscores
    rw [Stored.lost, inWindow_crowdStored, behindWindow_crowdStored] at hiff
    exact fun hbest => List.cons_ne_nil _ _ (hiff.1 hbest)
  have hmatching : (crowdStored (window + 1)).matching ⟨none, lastOnly⟩ [Metric.one] =
      [crowdHit window] := by
    rw [Stored.matching, hits_crowdStored, ← ranked_crowdStored,
      ← List.take_append_drop window (Stored.ranked _ _ _), List.filter_append]
    exact congrArg₂ (· ++ ·) inWindow_crowdStored behindWindow_crowdStored
  refine ⟨crowded (window + 1), t', crowdStored (window + 1), ⟨none, lastOnly⟩,
    [.ofSorted .similarity []], driven_crowded _, ?_⟩
  rw [crowded_eq]
  refine ⟨rfl, hheld, hcompiled, hwidth, hscores, hsearch, rfl, ?_, fun hbest => ?_⟩
  · rw [hmatching, List.map_singleton, id_crowdHit]
  · exact hnotBest (List.forall₂_cons.1 hbest).1

end Milvus

end VectorBridge
