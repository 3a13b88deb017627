import VectorBridge.Proofs.Family.Storage
import VectorBridge.Proofs.Ranking
/-!
# Searching a family's servers

A search asks the server for the nearest items that pass its part of the filter and
leaves the rest to the client. What a server answers is said of its storage:
`found` are the hits of all items that pass, in the order of the rows, and a family
searches a storage when its servers rank these hits and cut them where they are
told. A search then ranks and cuts at most twice, which where all scores are
numbers comes to ranking and cutting once.
-/

namespace VectorBridge

namespace Batch

/-- Vectors pass the check of a width one by one. -/
theorem checkVectors_of_forall {d : Dimension} {vectors : List Embedding}
    (h : ∀ v ∈ vectors, d.check v.length = .ok ()) : checkVectors d vectors = .ok () := by
  induction vectors with
  | nil => rfl
  | cons v rest ih =>
    rw [List.forall_mem_cons] at h
    rw [checkVectors, h.1]
    exact ih h.2

/-- Vectors that pass are searched for as they are. -/
theorem queryVectors_of_vectors {d : Dimension} {vectors : List Embedding}
    (h : ∀ v ∈ vectors, d.check v.length = .ok ()) (c : Context) (collection : String)
    (metadata : Option Metadata) (requests : List EmbeddingRequest) :
    queryVectors c collection metadata (.vectors vectors) d requests =
      (.ok vectors, requests) := by
  rw [queryVectors, Step.bind_of_ok (Step.pure_apply vectors requests)]
  simp only [checkVectors_of_forall h]
  rfl

end Batch

/-- The hits of the items that have a vector, in their order. -/
def hitsOf (score : Embedding → Float32) (items : List Item) : List Hit :=
  items.filterMap fun item => item.embedding.map fun e => ⟨item, score e⟩

/-- The hits of the items that pass a filter are the hits that pass it. -/
theorem hitsOf_filter (score : Embedding → Float32) (p : Item → Bool) (items : List Item) :
    hitsOf score (items.filter p) = (hitsOf score items).filter fun hit => p hit.item := by
  rw [hitsOf, hitsOf, List.filterMap_filter, List.filter_filterMap]
  congr 1
  funext item
  cases item.embedding with
  | none => cases p item <;> rfl
  | some e => cases hp : p item <;> simp [Option.filter, hp]

theorem length_hitsOf_le (score : Embedding → Float32) (items : List Item) :
    (hitsOf score items).length ≤ items.length := List.length_filterMap_le _ _

/-- Ranking scored rows and reading them as hits is ranking the hits of their items. -/
theorem map_top_scored {Row : Type} {toItem : Row → Item} {vector : Row → Option Embedding}
    (hvector : ∀ row, (toItem row).embedding = vector row) (ranking : Ranking)
    (score : Embedding → Float32) (limit : Nat) (rows : List Row) :
    (ranking.top (·.2) limit (rows.filterMap fun row => (vector row).map fun e =>
        (row, score e))).map (fun (row, score) => (⟨toItem row, score⟩ : Hit)) =
      ranking.top (·.score) limit (hitsOf score (rows.map toItem)) := by
  let toHit (scored : Row × Float32) : Hit := ⟨toItem scored.1, scored.2⟩
  have hscore : ∀ scored, (toHit scored).score = scored.2 := fun _ => rfl
  refine (ranking.top_map (·.score) hscore limit _).symm.trans ?_
  rw [List.map_filterMap, hitsOf, List.filterMap_map]
  congr 2
  funext row
  rw [Function.comp_apply, hvector, Option.map_map]
  rfl

namespace Storage

variable {τ Held Row Handle Condition Fragment : Type}

/-- A family searches a storage: opening a collection tells its ranking, its size and
its width, as far as there is one, and the server ranks the hits of what passes a
fragment and cuts them at `cut` of the limit it is given. -/
structure Searches (V : Storage τ Held Row Fragment) (F : Family τ Handle Condition Fragment)
    (I : τ → Prop) (ranking : Held → Ranking) (score : Held → Embedding → Embedding → Float32)
    (cut : Nat → Nat) : Prop where
  reads : F.ReadsOnly
  opens : ∀ {t name held}, I t → V.held? t (V.serverName name) = some held →
    ∃ h scoring, F.inspect name t = (.ok (h, scoring), t) ∧ scoring.ranking = ranking held ∧
      F.size h t = (.ok (V.rows held).length, t) ∧
      (∃ w, F.declaredWidth h t = (.ok w, t)) ∧ (∃ w, F.probedWidth h t = (.ok w, t)) ∧
      ∀ limit fragment vectors, F.nearest h scoring limit fragment vectors t =
        (.ok (vectors.map fun v => (ranking held).top (·.score) (cut limit)
          (hitsOf (score held v) (V.passing held fragment))), t)

theorem length_passing_le (V : Storage τ Held Row Fragment) (held : Held)
    (fragment : Option Fragment) : (V.passing held fragment).length ≤ (V.rows held).length := by
  rw [passing, List.length_map]
  exact List.length_filter_le _ _

end Storage

namespace Family

variable {τ Held Row Handle Condition Fragment : Type} {V : Storage τ Held Row Fragment}
variable {F : Family τ Handle Condition Fragment} {I : τ → Prop}
variable {ranking : Held → Ranking} {score : Held → Embedding → Embedding → Float32}
variable {cut : Nat → Nat}

open Session

/-- The width of a collection, as a search resolves it. -/
def widthOf (F : Family τ Handle Condition Fragment) (name : String) :
    Action (Session τ) Dimension := do
  let (h, _) ← call (F.inspect name)
  F.resolve h

/-- Where widths are remembered, the width of a collection that is held resolves. -/
theorem exists_widthOf (S : V.Searches F I ranking score cut) {s : Session τ} {name : String}
    {held : Held} (hI : I s.server)
    (hheld : V.held? s.server (V.serverName name) = some held)
    (hs : s.dimensions.Remembers) : ∃ d, (F.widthOf name s).1 = .ok d := by
  obtain ⟨h, scoring, hinspect, -, -, ⟨w, hdeclared⟩, ⟨w', hprobed⟩, -⟩ := S.opens hI hheld
  obtain ⟨dimensions, hresolve⟩ := resolveWidth_eq (F.nameOf h) hs hdeclared hprobed
  refine ⟨.ofOption (s.dimensions.cachedWidth? (F.nameOf h) <|> w <|> w'), ?_⟩
  rw [widthOf, Step.bind_of_ok (call_of_ok hinspect)]
  exact congrArg Prod.fst hresolve

/-- **What a search answers**: whatever the server finds for each vector, under the limit
that the residual asks for, is finished by the client. -/
theorem search_of_nearest (R : F.ReadsOnly) {s : Session τ} {name : String} {h : Handle}
    {scoring : Scoring} {size : Nat}
    {nearest : Nat → Option Fragment → Embedding → List Hit} (hconn : s.connected = true)
    (hinspect : F.inspect name s.server = (.ok (h, scoring), s.server))
    (hsize : F.size h s.server = (.ok size, s.server))
    (hnearest : ∀ limit fragment vectors, F.nearest h scoring limit fragment vectors s.server =
      (.ok (vectors.map (nearest limit fragment)), s.server))
    {vectors : List Embedding} {k : Nat} {filter : Option Filter}
    {compiled : CompiledFilter Fragment} {d : Dimension} (hk : 0 < k)
    (hcompiled : F.compiler.compile? filter = .ok compiled)
    (hwidth : (F.widthOf name s).1 = .ok d) (hvectors : ∀ v ∈ vectors, d.check v.length = .ok ()) :
    ∃ s', F.search name ⟨.vectors vectors, k, filter⟩ s =
      (.ok (vectors.map fun v => finishHits scoring.ranking
        (nearest (searchLimit compiled.residual k size) compiled.native v)
        compiled.residual k), s') := by
  have hopen : call (F.inspect name) s = (.ok (h, scoring), s) := call_of_ok hinspect
  have hcount : checkCount k = .ok () := if_neg (Nat.ne_of_gt hk)
  -- resolving the width leaves the server as it is
  obtain ⟨s₁, hresolve, hserver⟩ : ∃ s₁, F.resolve h s = (.ok d, s₁) ∧ s₁.server = s.server := by
    rw [widthOf, Step.bind_of_ok hopen] at hwidth
    exact ⟨(F.resolve h s).2, Prod.ext hwidth rfl,
      (untouched_resolveWidth (R.declaredWidth h) (R.probedWidth h) _ s).server⟩
  rw [← hserver] at hsize hnearest
  have hquery : embedding (fun c => Batch.queryVectors c name (F.metadataOf h) (.vectors vectors) d)
      s₁ = (.ok vectors, s₁) := by
    rw [embedding_apply, Batch.queryVectors_of_vectors hvectors]
  have hrest : ∀ total, searchLimit compiled.residual k total =
      searchLimit compiled.residual k size → (do
        let found ← call (F.nearest h scoring (searchLimit compiled.residual k total)
          compiled.native vectors)
        pure (found.map fun hits => finishHits scoring.ranking hits compiled.residual k) :
          Action (Session τ) (List QueryResult)) s₁ =
      (.ok (vectors.map fun v => finishHits scoring.ranking
        (nearest (searchLimit compiled.residual k size) compiled.native v)
        compiled.residual k), s₁) := by
    intro total hlimit
    rw [hlimit, Step.bind_of_ok (call_of_ok (hnearest _ _ _)), Step.pure_apply, List.map_map]
    rfl
  refine ⟨s₁, ?_⟩
  rw [search, ensureConnected_bind hconn, Action.ofResult_bind_of_ok hcount,
    Action.ofResult_bind_of_ok hcompiled, Step.bind_of_ok hopen]
  simp only
  rw [Step.bind_of_ok hresolve, Step.bind_of_ok hquery]
  cases hcomplete : compiled.isComplete with
  | true =>
    -- without a residual the size does not matter, and is not asked for
    refine hrest 0 ?_
    rw [CompiledFilter.isComplete] at hcomplete
    rw [searchLimit, searchLimit, if_pos hcomplete, if_pos hcomplete]
  | false =>
    rw [if_neg Bool.false_ne_true, Step.bind_of_ok (call_of_ok hsize)]
    exact hrest _ rfl

/-- A family that searches a storage finds the best hits of what passes. -/
theorem search_apply (S : V.Searches F I ranking score cut) {s : Session τ} {name : String}
    {held : Held} (hI : I s.server) (hconn : s.connected = true)
    (hheld : V.held? s.server (V.serverName name) = some held) {vectors : List Embedding} {k : Nat}
    {filter : Option Filter} {compiled : CompiledFilter Fragment} {d : Dimension} (hk : 0 < k)
    (hcompiled : F.compiler.compile? filter = .ok compiled)
    (hwidth : (F.widthOf name s).1 = .ok d) (hvectors : ∀ v ∈ vectors, d.check v.length = .ok ()) :
    ∃ s', F.search name ⟨.vectors vectors, k, filter⟩ s =
      (.ok (vectors.map fun v => finishHits (ranking held)
        ((ranking held).top (·.score)
          (cut (searchLimit compiled.residual k (V.rows held).length))
          (hitsOf (score held v) (V.passing held compiled.native)))
        compiled.residual k), s') := by
  obtain ⟨h, scoring, hinspect, hranking, hsize, -, -, hnearest⟩ := S.opens hI hheld
  rw [← hranking]
  rw [← hranking] at hnearest
  exact search_of_nearest S.reads hconn hinspect hsize hnearest hk hcompiled hwidth hvectors

/-- **Pushing a filter down does not change what a search finds.** Where servers cut
where they are told and all scores are numbers, a result is the first `k` hits of
all items that pass the fragment and the residual, in stable order, best first. -/
theorem search_exact (S : V.Searches F I ranking score id) {s : Session τ} {name : String}
    {held : Held} (hI : I s.server) (hconn : s.connected = true)
    (hheld : V.held? s.server (V.serverName name) = some held) {vectors : List Embedding} {k : Nat}
    {filter : Option Filter} {compiled : CompiledFilter Fragment} {d : Dimension} (hk : 0 < k)
    (hcompiled : F.compiler.compile? filter = .ok compiled)
    (hwidth : (F.widthOf name s).1 = .ok d) (hvectors : ∀ v ∈ vectors, d.check v.length = .ok ())
    (hscores : ∀ v ∈ vectors, Ranking.Comparable (·.score)
      (hitsOf (score held v) (V.passing held compiled.native))) :
    ∃ s', F.search name ⟨.vectors vectors, k, filter⟩ s =
      (.ok (vectors.map fun v => .ofSorted (ranking held)
        ((((ranking held).sort (·.score)
          (hitsOf (score held v) (compiled.postFilter (V.passing held compiled.native)))).take
            k).map Hit.shown)), s') := by
  obtain ⟨s', hsearch⟩ := search_apply S hI hconn hheld hk hcompiled hwidth hvectors
  refine ⟨s', hsearch.trans ?_⟩
  congr 2
  refine List.map_congr_left fun v hv => ?_
  rw [finishHits_top (hscores v hv), finishHits_eq (hscores v hv), CompiledFilter.postFilter,
    hitsOf_filter]
  · intro hempty
    rw [searchLimit, if_pos hempty]
    rfl
  · -- with a residual the server is asked for as many hits as there are rows
    intro hresidual
    rw [searchLimit, hresidual, if_neg Bool.false_ne_true]
    exact Nat.le_trans (length_hitsOf_le _ _)
      (Nat.le_trans (V.length_passing_le held compiled.native) (Nat.le_max_left _ k))

end Family

end VectorBridge
