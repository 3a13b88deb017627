import Mathlib.Data.List.Chain
import VectorBridge.Proofs.Ranking
import VectorBridge.Proofs.Rows
/-!
# Results best first

The rows of a result are the hits that it is made of, each with its score, in another order.
A score that is no number counts as equal to every other, and that is no equality: a worse
and a better score may both be equal to it. So where hits have an order at all, which is where
their scores are numbers or do not differ, a result has that order, and where they have none
it depends on how they came: a list stays as it is when no hit in it is strictly better than
the one right before it, and hits without an order can be put into such a list with a better
one behind a worse one.
-/

namespace VectorBridge

namespace Ranking

variable {α : Type} {r : Ranking} {score : α → Float32} {l : List α} {x y : α}

/-- No entry is strictly better than one that stands before it. -/
def BestFirst (r : Ranking) (score : α → Float32) (l : List α) : Prop :=
  l.Pairwise fun x y => r.bestFirst (score y) (score x) ≠ .lt

/-- The scores agree on an order: all of them are numbers, or none is strictly better than
another. -/
def Rankable (r : Ranking) (score : α → Float32) (l : List α) : Prop :=
  Comparable score l ∨ ∀ x ∈ l, ∀ y ∈ l, r.bestFirst (score x) (score y) ≠ .lt

/-! ## Scores that are no numbers -/

/-- What is no number is equal to everything. -/
theorem bestFirst_of_isNaN {a b : Float32}
    (h : Binary32.isNaN a = true ∨ Binary32.isNaN b = true) : r.bestFirst a b = .eq := by
  have hnone : Binary32.compare? a b = none := by
    refine if_pos ?_
    rw [Binary32.natAbs_key, Binary32.natAbs_key]
    exact h.imp of_decide_eq_true of_decide_eq_true
  cases r <;> simp only [bestFirst, hnone, Option.getD_none, Ordering.swap]

theorem not_isNaN_of_lt {a b : Float32} (h : r.bestFirst a b = .lt) :
    Binary32.isNaN a = false ∧ Binary32.isNaN b = false := by
  refine ⟨Bool.eq_false_iff.2 fun ha => ?_, Bool.eq_false_iff.2 fun hb => ?_⟩
  · rw [bestFirst_of_isNaN (.inl ha)] at h
    cases h
  · rw [bestFirst_of_isNaN (.inr hb)] at h
    cases h

/-! ## Lists that stay as they are -/

/-- **A list in which no entry is strictly better than the one right before it stays as it
is**, and need not be best first for that. -/
theorem sort_of_isChain (h : l.IsChain fun x y => r.bestFirst (score y) (score x) ≠ .lt) :
    r.sort score l = l := by
  -- on the entries that are still to be placed; the one placed last stands first
  have hfold : ∀ rest before : List α,
      (before.reverse ++ rest).IsChain (fun x y => r.bestFirst (score y) (score x) ≠ .lt) →
      rest.foldl (fun sorted x => r.place score x sorted) before = rest.reverse ++ before := by
    intro rest
    induction rest with
    | nil => exact fun _ _ => rfl
    | cons x rest ih =>
      intro before hchain
      have hplace : r.place score x before = x :: before := by
        cases before with
        | nil => rfl
        | cons y ys =>
          rw [List.reverse_cons, List.append_assoc, List.singleton_append,
            List.isChain_append_cons_cons] at hchain
          rw [place, if_neg hchain.2.1]
      rw [List.foldl_cons, hplace, ih (x :: before) (by simpa using hchain), List.reverse_cons,
        List.append_assoc, List.singleton_append]
  rw [sort, hfold l [] h, List.append_nil, List.reverse_reverse]

theorem bestFirst_ne_lt_of_le (hx : Binary32.isNaN (score x) = false)
    (hy : Binary32.isNaN (score y) = false) (h : r.rank (score x) ≤ r.rank (score y)) :
    r.bestFirst (score y) (score x) ≠ .lt := by
  rw [bestFirst_eq hy hx]
  exact fun hlt => absurd (Int.compare_eq_lt.1 hlt) (Int.not_lt.2 h)

/-- Numbers are sorted best first. -/
theorem bestFirst_sort_of_comparable (h : Comparable score l) :
    r.BestFirst score (r.sort score l) := by
  have hsorted := h.of_perm (r.sort_perm score l)
  exact (pairwise_sort h).imp_of_mem fun {x y} hx hy hle =>
    bestFirst_ne_lt_of_le (hsorted x hx) (hsorted y hy) hle

namespace Rankable

theorem of_perm {l' : List α} (h : r.Rankable score l) (hperm : l'.Perm l) :
    r.Rankable score l' :=
  h.imp (·.of_perm hperm) fun hnone x hx y hy =>
    hnone x (hperm.mem_iff.1 hx) y (hperm.mem_iff.1 hy)

/-- **Scores that agree on an order are sorted best first.** -/
theorem bestFirst_sort (h : r.Rankable score l) : r.BestFirst score (r.sort score l) := by
  rcases h with hnumbers | hnone
  · exact bestFirst_sort_of_comparable hnumbers
  · exact List.pairwise_of_forall_mem_list fun x hx y hy =>
      hnone y ((r.sort_perm score l).mem_iff.1 hy) x ((r.sort_perm score l).mem_iff.1 hx)

end Rankable

/-! ## Lists without an order -/

/-- What is no number first, and the numbers behind it, best first. -/
def lostFirst (r : Ranking) (score : α → Float32) (l : List α) : List α :=
  l.filter (fun x => Binary32.isNaN (score x)) ++
    r.sort score (l.filter fun x => !Binary32.isNaN (score x))

theorem lostFirst_perm (l : List α) : (r.lostFirst score l).Perm l :=
  ((r.sort_perm score _).append_left _).trans (List.filter_append_perm _ l)

/-- No entry is strictly better than one in front of it: what is no number comes first. -/
theorem bestFirst_lostFirst (l : List α) : r.BestFirst score (r.lostFirst score l) := by
  have hequal : ∀ x ∈ l.filter (fun x => Binary32.isNaN (score x)), ∀ y,
      r.bestFirst (score y) (score x) ≠ .lt := by
    intro x hx y
    rw [bestFirst_of_isNaN (.inr (List.mem_filter.1 hx).2)]
    nofun
  have hnumbers : Comparable score (l.filter fun x => !Binary32.isNaN (score x)) :=
    fun x hx => by simpa using (List.mem_filter.1 hx).2
  exact List.pairwise_append.2
    ⟨List.pairwise_of_forall_mem_list fun x hx y _ => hequal x hx y,
      bestFirst_sort_of_comparable hnumbers, fun x hx y _ => hequal x hx y⟩

/-- The first entry is no number when there is such an entry. -/
theorem isNaN_of_mem_head? (hx : x ∈ l) (hnan : Binary32.isNaN (score x) = true) :
    ∀ y ∈ (r.lostFirst score l).head?, Binary32.isNaN (score y) = true := by
  have hlost : l.filter (fun x => Binary32.isNaN (score x)) ≠ [] :=
    List.ne_nil_of_mem (List.mem_filter.2 ⟨hx, hnan⟩)
  intro y hy
  rw [lostFirst, List.head?_append_of_ne_nil _ hlost] at hy
  exact (List.mem_filter.1 (List.mem_of_mem_head? hy)).2

/-- **Scores that agree on no order come out of it when they come so**: the worse of two
numbers first, then what is no number, and the better one behind that. -/
theorem exists_unranked (h : ¬ r.Rankable score l) :
    ∃ given, given.Perm l ∧ r.sort score given = given ∧ ¬ r.BestFirst score given := by
  simp only [Rankable, Comparable, not_or, not_forall, Bool.not_eq_false, not_not] at h
  obtain ⟨⟨z, hz, hnan⟩, x, hx, y, hy, hlt⟩ := h
  obtain ⟨hxnum, hynum⟩ := not_isNaN_of_lt hlt
  have hxy : x ≠ y := by
    rintro rfl
    rw [bestFirst_eq hxnum hxnum] at hlt
    exact absurd (Int.compare_eq_lt.1 hlt) (Int.lt_irrefl _)
  have hzy : z ≠ y := by
    rintro rfl
    rw [hynum] at hnan
    cases hnan
  -- both `x` and `z` are among the entries apart from `y`
  obtain ⟨before, behind, rfl⟩ := List.append_of_mem hy
  have hrest : ∀ {w}, w ∈ before ++ y :: behind → w ≠ y → w ∈ before ++ behind := by
    intro w hw hne
    simpa [hne] using hw
  refine ⟨y :: r.lostFirst score (before ++ behind), ?_, sort_of_isChain ?_, fun hbest => ?_⟩
  · exact ((lostFirst_perm _).cons y).trans List.perm_middle.symm
  · refine List.isChain_cons.2 ⟨fun w hw => ?_, (bestFirst_lostFirst _).isChain⟩
    rw [bestFirst_of_isNaN (.inl (isNaN_of_mem_head? (hrest hz hzy) hnan w hw))]
    exact fun hgt => Ordering.noConfusion hgt
  · have hbehind : x ∈ r.lostFirst score (before ++ behind) :=
      (lostFirst_perm _).mem_iff.2 (hrest hx hxy)
    exact (List.pairwise_cons.1 hbest).1 x hbehind hlt

end Ranking

namespace QueryResult

open Ranking (BestFirst Rankable)

/-- The rows of a result are its hits, sorted. -/
theorem hits_ofHits (ranking : Ranking) (hits : List Hit) :
    (ofHits ranking hits).hits = ranking.sort (·.score) hits :=
  hits_ofSorted ranking _

/-- A hit on an item of no content. -/
def bareHit (id : String) (bits : UInt32) : Hit :=
  ⟨{ id, document := none, metadata := [], embedding := none }, Float32.ofBits bits⟩

end QueryResult

end VectorBridge
