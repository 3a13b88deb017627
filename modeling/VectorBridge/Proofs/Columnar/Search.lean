import VectorBridge.Proofs.Columnar.Refinement
import VectorBridge.Proofs.Family.Search
/-!
# Searching tables

A table is searched by the adapter itself, which reads it whole and passes over
vectors of another width than the query's. In a session that tracks an archive
there are none: the width that is resolved is the roster's, and every item of the
roster fits.
-/

namespace VectorBridge

namespace Columnar

open Session

variable {s : Session Memory} {name : String} {t : Table}

/-- Vectors of the width of a query are all compared. -/
theorem nearest_eq {metric : Metric} {k : Nat} {candidates : List Item} {v : Embedding}
    (hfits : ∀ item ∈ candidates, ∀ e, item.embedding = some e → e.length = v.length) :
    nearest metric k candidates v =
      finishHits .distance (hitsOf (metric.distance v) candidates) .empty k := by
  rw [nearest]
  congr 1
  refine List.filterMap_congr fun item hitem => ?_
  cases he : item.embedding with
  | none => rfl
  | some e => simp [hfits item hitem e he]

/-- **A search of a table** finds the first `k` hits of all items that pass the
filter, in stable order, best first. -/
theorem search_exact (hconn : s.connected = true)
    (hheld : Keyed.get? name s.server.tables = some t) {vectors : List Embedding} {k : Nat}
    {filter : Option Filter} {compiled : CompiledFilter Unit} {d : Dimension} (hk : 0 < k)
    (hcompiled : filterCompiler.compile? filter = .ok compiled)
    (hwidth : (resolve name s).1 = .ok d) (hvectors : ∀ v ∈ vectors, d.check v.length = .ok ())
    (hfits : ∀ v ∈ vectors, ∀ item ∈ t.items, ∀ e, item.embedding = some e → e.length = v.length)
    (hscores : ∀ v ∈ vectors,
      Ranking.Comparable (·.score) (hitsOf (t.metric.distance v) t.items)) :
    ∃ s', search name ⟨.vectors vectors, k, filter⟩ s =
      (.ok (vectors.map fun v => .ofSorted .distance
        (((Ranking.distance.sort (·.score)
          (hitsOf (t.metric.distance v) (compiled.postFilter t.items))).take k).map
            Hit.shown)), s') := by
  have hcount : checkCount k = .ok () := if_neg (Nat.ne_of_gt hk)
  have hread : call (Store.read name) s = (.ok t, s) := call_read_eq_ok_iff.2 ⟨hheld, rfl⟩
  have hresolve : resolve name s = (.ok d, (resolve name s).2) := Prod.ext hwidth rfl
  have hquery : embedding (fun c => Batch.queryVectors c name none (.vectors vectors) d)
      (resolve name s).2 = (.ok vectors, (resolve name s).2) := by
    rw [embedding_apply, Batch.queryVectors_of_vectors hvectors]
  refine ⟨(resolve name s).2, ?_⟩
  rw [search, ensureConnected_bind hconn, Action.ofResult_bind_of_ok hcount,
    Action.ofResult_bind_of_ok hcompiled, Step.bind_of_ok hread, Step.bind_of_ok hresolve,
    Step.bind_of_ok hquery, Step.pure_apply]
  congr 2
  refine List.map_congr_left fun v hv => ?_
  have hsub : (compiled.postFilter t.items).Sublist t.items := List.filter_sublist
  have hkept : Ranking.Comparable (·.score)
      (hitsOf (t.metric.distance v) (compiled.postFilter t.items)) :=
    (hscores v hv).of_sublist (hsub.filterMap _)
  have hall : ∀ l : List Hit, (l.filter fun hit => Filter.empty.accepts hit.item) = l :=
    fun l => List.filter_eq_self.2 fun _ _ => rfl
  rw [nearest_eq fun item hitem => hfits v hv item (hsub.subset hitem), finishHits_eq hkept, hall]

/-- In a session that tracks an archive, a vector that is admitted is as wide as all
that are stored. -/
theorem Tracks.length_eq {a : Archive} (h : Tracks s a)
    (hheld : Keyed.get? name s.server.tables = some t) {d : Dimension}
    (hwidth : (resolve name s).1 = .ok d) {v : Embedding} (hv : d.check v.length = .ok ()) :
    ∀ item ∈ t.items, ∀ e, item.embedding = some e → e.length = v.length := by
  obtain ⟨r, hr, hsound, rfl⟩ := h.represents.exists_roster hheld
  obtain ⟨dimensions, hresolve, -⟩ := resolve_of_some h hr
  rw [hresolve] at hwidth
  cases hwidth
  intro item hitem e he
  rw [Roster.items_table hsound] at hitem
  rw [(hsound item hitem).width e he]
  rw [Dimension.check] at hv
  split at hv
  · assumption
  · cases hv

end Columnar

end VectorBridge
