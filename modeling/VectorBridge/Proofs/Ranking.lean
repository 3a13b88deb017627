import VectorBridge.Session
/-!
# Rankings

Sorting the hits of a search puts them into another order and cutting the best
ones off leaves some of them, so a result shows ids of hits and no others.

Where all scores are numbers the order is a stable one: better entries come first,
and entries that do not differ in the order they came in. `Orders` says so of a list
and its sorted form, of which there is one. A list that is sorted stays as it is,
and so does what is left of it when entries are dropped or cut off, so a search may
rank and cut its hits as often as it likes.
-/

namespace VectorBridge

theorem Binary32.natAbs_key (x : Float32) : (key x).natAbs = magnitude x := by
  rw [key]
  split
  · rw [Int.natAbs_neg, Int.natAbs_natCast]
  · exact Int.natAbs_natCast _

namespace Ranking

variable {α : Type} (r : Ranking) (score : α → Float32)

theorem place_perm (x : α) (l : List α) : (r.place score x l).Perm (x :: l) := by
  induction l with
  | nil => exact .refl _
  | cons y ys ih =>
    rw [place]
    split
    · exact (ih.cons y).trans (.swap x y ys)
    · exact .refl _

/-- **Sorting keeps every entry.** -/
theorem sort_perm (l : List α) : (r.sort score l).Perm l := by
  -- on the entries; what is sorted so far comes with the rest of the list
  have hfold : ∀ sorted : List α,
      (l.foldl (fun sorted x => r.place score x sorted) sorted).Perm (l ++ sorted) := by
    induction l with
    | nil => exact fun _ => .refl _
    | cons x l ih =>
      intro sorted
      exact (ih _).trans (((r.place_perm score x sorted).append_left l).trans List.perm_middle)
  have hsorted := hfold []
  rw [List.append_nil] at hsorted
  exact (List.reverse_perm _).trans hsorted

theorem mem_of_mem_top {limit : Nat} {l : List α} {x : α} (h : x ∈ r.top score limit l) : x ∈ l :=
  (r.sort_perm score l).mem_iff.1 (List.mem_of_mem_take h)

/-- Sorting looks at nothing but scores. -/
theorem sort_map {β : Type} {f : β → α} {score' : β → Float32} (h : ∀ x, score (f x) = score' x)
    (l : List β) : r.sort score (l.map f) = (r.sort score' l).map f := by
  have hplace : ∀ (x : β) (l : List β),
      r.place score (f x) (l.map f) = (r.place score' x l).map f := by
    intro x l
    induction l with
    | nil => rfl
    | cons y ys ih =>
      rw [List.map_cons, place, place, ih, h, h]
      split <;> rfl
  have hfold : ∀ sorted : List β, (l.map f).foldl (fun sorted x => r.place score x sorted)
      (sorted.map f) = (l.foldl (fun sorted x => r.place score' x sorted) sorted).map f := by
    induction l with
    | nil => exact fun _ => rfl
    | cons x l ih =>
      intro sorted
      rw [List.map_cons, List.foldl_cons, List.foldl_cons, hplace, ih]
  have hall := hfold []
  rw [List.map_nil] at hall
  rw [sort, sort, hall, List.map_reverse]

theorem top_map {β : Type} {f : β → α} {score' : β → Float32} (h : ∀ x, score (f x) = score' x)
    (limit : Nat) (l : List β) : r.top score limit (l.map f) = (r.top score' limit l).map f := by
  rw [top, top, sort_map r score h, List.map_take]

/-! ## Stable order -/

/-- One list is another in stable order, best first: it has the same entries, none
of them before a better one, and those that do not differ from an entry in the
order they came in. -/
structure Orders (l sorted : List α) : Prop where
  perm : sorted.Perm l
  best : sorted.Pairwise fun x y => r.bestFirst (score x) (score y) ≠ .gt
  stable : ∀ z ∈ l, sorted.filter (fun x => r.bestFirst (score x) (score z) = .eq) =
    l.filter fun x => r.bestFirst (score x) (score z) = .eq

/-- Entries that can be compared: none has a score that is not a number. -/
def Comparable (score : α → Float32) (l : List α) : Prop :=
  ∀ x ∈ l, Binary32.isNaN (score x) = false

/-- Where a number stands among the scores; what is better stands lower. -/
def rank : Ranking → Float32 → Int
  | distance, x => Binary32.key x
  | similarity, x => -Binary32.key x

variable {r score} {l l' sorted : List α} {x : α}

theorem bestFirst_eq {a b : Float32} (ha : Binary32.isNaN a = false)
    (hb : Binary32.isNaN b = false) : r.bestFirst a b = compare (r.rank a) (r.rank b) := by
  have hnum : ¬ (BinaryFormat.binary32.infinityBits < (Binary32.key a).natAbs ∨
      BinaryFormat.binary32.infinityBits < (Binary32.key b).natAbs) := by
    rw [Binary32.natAbs_key, Binary32.natAbs_key]
    rintro (h | h)
    · exact of_decide_eq_false ha h
    · exact of_decide_eq_false hb h
  cases r with
  | distance => simp only [bestFirst, Binary32.compare?, compareKeys, if_neg hnum, Option.getD_some,
      rank]
  | similarity =>
    simp only [bestFirst, Binary32.compare?, compareKeys, if_neg hnum, Option.getD_some, rank,
      Int.compare_swap]
    rcases Int.lt_trichotomy (Binary32.key b) (Binary32.key a) with h | h | h
    · rw [Int.compare_eq_lt.2 h, Int.compare_eq_lt.2 (by omega)]
    · rw [Int.compare_eq_eq.2 h, Int.compare_eq_eq.2 (by omega)]
    · rw [Int.compare_eq_gt.2 h, Int.compare_eq_gt.2 (by omega)]

namespace Comparable

theorem of_sublist (h : Comparable score l) (hsub : l'.Sublist l) : Comparable score l' :=
  fun x hx => h x (hsub.subset hx)

theorem of_perm (h : Comparable score l) (hperm : l'.Perm l) : Comparable score l' :=
  fun x hx => h x (hperm.mem_iff.1 hx)

end Comparable

/-- Placing an entry in a list that is kept worst first keeps it so. -/
theorem pairwise_place (hx : Binary32.isNaN (score x) = false) (hl : Comparable score l)
    (h : l.Pairwise fun y z => r.rank (score z) ≤ r.rank (score y)) :
    (r.place score x l).Pairwise fun y z => r.rank (score z) ≤ r.rank (score y) := by
  induction l with
  | nil => exact List.pairwise_singleton _ _
  | cons y ys ih =>
    rw [Comparable, List.forall_mem_cons] at hl
    obtain ⟨hy, hys⟩ := List.pairwise_cons.1 h
    rw [place, bestFirst_eq hx hl.1]
    split
    · rename_i hlt
      have hlt := Int.compare_eq_lt.1 hlt
      refine List.pairwise_cons.2 ⟨fun z hz => ?_, ih hl.2 hys⟩
      rcases List.mem_cons.1 ((r.place_perm score x ys).mem_iff.1 hz) with rfl | hz
      · omega
      · exact hy z hz
    · rename_i hge
      have hge : ¬ r.rank (score x) < r.rank (score y) := fun h => hge (Int.compare_eq_lt.2 h)
      refine List.pairwise_cons.2 ⟨fun z hz => ?_, h⟩
      rcases List.mem_cons.1 hz with rfl | hz
      · omega
      · have := hy z hz
        omega

/-- An entry is placed before all that stand where it stands. -/
theorem filter_place (hx : Binary32.isNaN (score x) = false) (hl : Comparable score l) (c : Int) :
    (r.place score x l).filter (fun y => r.rank (score y) = c) =
      (x :: l).filter fun y => r.rank (score y) = c := by
  induction l with
  | nil => rfl
  | cons y ys ih =>
    rw [Comparable, List.forall_mem_cons] at hl
    rw [place, bestFirst_eq hx hl.1]
    split
    · rename_i hlt
      have hlt := Int.compare_eq_lt.1 hlt
      -- the two entries stand apart, so at most one of them stands at `c`
      rw [List.filter_cons, ih hl.2, List.filter_cons, List.filter_cons, List.filter_cons]
      by_cases hxc : r.rank (score x) = c
      · have hyc : r.rank (score y) ≠ c := by omega
        simp [hxc, hyc]
      · simp [hxc]
    · rfl

/-- **Sorting puts better entries first.** -/
theorem pairwise_sort (hl : Comparable score l) :
    (r.sort score l).Pairwise fun x y => r.rank (score x) ≤ r.rank (score y) := by
  have hfold : ∀ sorted, Comparable score sorted →
      (sorted.Pairwise fun y z => r.rank (score z) ≤ r.rank (score y)) →
      (l.foldl (fun sorted x => r.place score x sorted) sorted).Pairwise
        fun y z => r.rank (score z) ≤ r.rank (score y) := by
    induction l with
    | nil => exact fun _ _ h => h
    | cons x l ih =>
      intro sorted hsorted h
      rw [Comparable, List.forall_mem_cons] at hl
      refine ih hl.2 _ (fun y hy => ?_) (pairwise_place hl.1 hsorted h)
      rcases List.mem_cons.1 ((r.place_perm score x sorted).mem_iff.1 hy) with rfl | hy
      · exact hl.1
      · exact hsorted y hy
  exact List.pairwise_reverse.2 (hfold [] nofun .nil)

/-- **Sorting keeps entries that stand alike in their order.** -/
theorem filter_sort (hl : Comparable score l) (c : Int) :
    (r.sort score l).filter (fun x => r.rank (score x) = c) =
      l.filter fun x => r.rank (score x) = c := by
  have hfold : ∀ sorted, Comparable score sorted →
      (l.foldl (fun sorted x => r.place score x sorted) sorted).filter
          (fun x => r.rank (score x) = c) =
        (l.filter fun x => r.rank (score x) = c).reverse ++
          sorted.filter fun x => r.rank (score x) = c := by
    induction l with
    | nil => exact fun _ _ => rfl
    | cons x l ih =>
      intro sorted hsorted
      rw [Comparable, List.forall_mem_cons] at hl
      rw [List.foldl_cons, ih hl.2, filter_place hl.1 hsorted, List.filter_cons, List.filter_cons]
      · split <;> simp
      · intro y hy
        rcases List.mem_cons.1 ((r.place_perm score x sorted).mem_iff.1 hy) with rfl | hy
        · exact hl.1
        · exact hsorted y hy
  rw [sort, List.filter_reverse, hfold [] nofun, List.filter_nil, List.append_nil,
    List.reverse_reverse]

/-- Two sorted lists are one when they have the same entries in every place. -/
theorem eq_of_filter_eq (h : l.Pairwise fun x y => r.rank (score x) ≤ r.rank (score y))
    (h' : l'.Pairwise fun x y => r.rank (score x) ≤ r.rank (score y))
    (hplaces : ∀ c : Int, l.filter (fun x => r.rank (score x) = c) =
      l'.filter fun x => r.rank (score x) = c) : l = l' := by
  induction l generalizing l' with
  | nil =>
    cases l' with
    | nil => rfl
    | cons y ys =>
      have := hplaces (r.rank (score y))
      simp at this
  | cons x xs ih =>
    cases l' with
    | nil =>
      have := hplaces (r.rank (score x))
      simp at this
    | cons y ys =>
      obtain ⟨hx, hxs⟩ := List.pairwise_cons.1 h
      obtain ⟨hy, hys⟩ := List.pairwise_cons.1 h'
      -- each first entry is somewhere in the other list, so neither stands above the other
      have hle : r.rank (score x) ≤ r.rank (score y) := by
        have hmem : y ∈ (x :: xs).filter fun z => r.rank (score z) = r.rank (score y) := by
          rw [hplaces]
          simp
        rcases List.mem_cons.1 (List.mem_filter.1 hmem).1 with rfl | hmem
        · exact Int.le_refl _
        · exact hx y hmem
      have hge : r.rank (score y) ≤ r.rank (score x) := by
        have hmem : x ∈ (y :: ys).filter fun z => r.rank (score z) = r.rank (score x) := by
          rw [← hplaces]
          simp
        rcases List.mem_cons.1 (List.mem_filter.1 hmem).1 with rfl | hmem
        · exact Int.le_refl _
        · exact hy x hmem
      have hsame := Int.le_antisymm hle hge
      have hfirst := hplaces (r.rank (score x))
      rw [List.filter_cons_of_pos (by simp), List.filter_cons_of_pos (by simp [hsame])] at hfirst
      obtain rfl := (List.cons.inj hfirst).1
      refine congrArg (x :: ·) (ih hxs hys fun c => ?_)
      have hrest := hplaces c
      rw [List.filter_cons, List.filter_cons] at hrest
      split at hrest
      · exact (List.cons.inj hrest).2
      · exact hrest

/-- A sorted list with the same entries in every place is what sorting makes. -/
theorem sort_eq_of_filter_eq (hl : Comparable score l)
    (h : l'.Pairwise fun x y => r.rank (score x) ≤ r.rank (score y))
    (hplaces : ∀ c : Int, l'.filter (fun x => r.rank (score x) = c) =
      l.filter fun x => r.rank (score x) = c) : r.sort score l = l' :=
  eq_of_filter_eq (pairwise_sort hl) h fun c => (filter_sort hl c).trans (hplaces c).symm

/-- A sorted list stays as it is. -/
theorem sort_of_pairwise (hl : Comparable score l)
    (h : l.Pairwise fun x y => r.rank (score x) ≤ r.rank (score y)) : r.sort score l = l :=
  sort_eq_of_filter_eq hl h fun _ => rfl

/-- What is cut off a sorted list is sorted. -/
theorem sort_take_sort (hl : Comparable score l) (k : Nat) :
    r.sort score ((r.sort score l).take k) = (r.sort score l).take k :=
  sort_of_pairwise ((hl.of_perm (r.sort_perm score l)).of_sublist (List.take_sublist k _))
    ((pairwise_sort hl).sublist (List.take_sublist k _))

/-- Entries may be dropped before or after they are sorted. -/
theorem filter_sort_eq (hl : Comparable score l) (p : α → Bool) :
    (r.sort score l).filter p = r.sort score (l.filter p) := by
  refine (sort_eq_of_filter_eq (hl.of_sublist List.filter_sublist)
    ((pairwise_sort hl).sublist List.filter_sublist) fun c => ?_).symm
  have hcomm : ∀ l : List α, (l.filter p).filter (fun x => r.rank (score x) = c) =
      (l.filter fun x => r.rank (score x) = c).filter p := by
    intro l
    rw [List.filter_filter, List.filter_filter]
    exact List.filter_congr fun x _ => Bool.and_comm _ _
  rw [hcomm, hcomm, filter_sort hl]

/-- The entries that do not differ from an entry are those that stand where it does. -/
theorem filter_bestFirst_eq (hl : Comparable score l) {z : α}
    (hz : Binary32.isNaN (score z) = false) :
    (l.filter fun x => r.bestFirst (score x) (score z) = .eq) =
      l.filter fun x => r.rank (score x) = r.rank (score z) := by
  refine List.filter_congr fun x hx => ?_
  rw [bestFirst_eq (hl x hx) hz]
  exact decide_eq_decide.2 Int.compare_eq_eq

/-- What sorting makes of a list is its stable order. -/
theorem orders_sort (hl : Comparable score l) : r.Orders score l (r.sort score l) where
  perm := r.sort_perm score l
  best := by
    have hsorted := hl.of_perm (r.sort_perm score l)
    refine (pairwise_sort hl).imp_of_mem fun {x y} hx hy hle => ?_
    rw [bestFirst_eq (hsorted x hx) (hsorted y hy)]
    exact Int.compare_ne_gt.2 hle
  stable z hz := by
    rw [filter_bestFirst_eq (hl.of_perm (r.sort_perm score l)) (hl z hz),
      filter_bestFirst_eq hl (hl z hz), filter_sort hl]

/-- **There is one stable order.** -/
theorem Orders.eq_sort (h : r.Orders score l sorted) (hl : Comparable score l) :
    sorted = r.sort score l := by
  have hsorted := hl.of_perm h.perm
  refine (sort_eq_of_filter_eq hl (h.best.imp_of_mem fun {x y} hx hy hne => ?_) fun c => ?_).symm
  · rw [bestFirst_eq (hsorted x hx) (hsorted y hy)] at hne
    exact Int.compare_ne_gt.1 hne
  by_cases hc : ∃ z ∈ l, r.rank (score z) = c
  · obtain ⟨z, hz, rfl⟩ := hc
    have hstable := h.stable z hz
    rwa [filter_bestFirst_eq hsorted (hl z hz), filter_bestFirst_eq hl (hl z hz)] at hstable
  · -- no entry stands there in either list
    have hnone : ∀ x ∈ l, ¬ decide (r.rank (score x) = c) = true := fun x hx hx' =>
      hc ⟨x, hx, of_decide_eq_true hx'⟩
    rw [List.filter_eq_nil_iff.2 hnone,
      List.filter_eq_nil_iff.2 fun x hx => hnone x (h.perm.mem_iff.1 hx)]

end Ranking

/-! ## Results of a search -/

/-- A hit as a result shows it, with reserved metadata left out. -/
def Hit.shown (hit : Hit) : Hit := { hit with item := hit.item.stripReserved }

section Results

open Ranking

variable {ranking : Ranking} {hits : List Hit} {residual : Filter} {k limit : Nat}

/-- **A result is the first `k` hits that pass the residual**, in stable order, best
first. -/
theorem finishHits_eq (hhits : Comparable (·.score) hits) :
    finishHits ranking hits residual k = .ofSorted ranking
      (((ranking.sort (·.score) (hits.filter fun hit => residual.accepts hit.item)).take k).map
        Hit.shown) := by
  have hkept := hhits.of_sublist (List.filter_sublist (p := fun hit => residual.accepts hit.item))
  have hscore : ∀ hit : Hit, hit.shown.score = hit.score := fun _ => rfl
  show QueryResult.ofSorted ranking (ranking.sort (·.score) (ranking.top (·.score) k
    ((hits.filter fun hit => residual.accepts hit.item).map Hit.shown))) = _
  rw [top_map ranking _ hscore, sort_map ranking _ hscore, top, sort_take_sort hkept]

/-- What is cut before it is filtered is the best of all hits, and of these the ones that
pass the residual are shown. -/
theorem finishHits_of_top (hhits : Comparable (·.score) hits) :
    finishHits ranking (ranking.top (·.score) limit hits) residual k = .ofSorted ranking
      (((((ranking.sort (·.score) hits).take limit).filter fun hit =>
        residual.accepts hit.item).take k).map Hit.shown) := by
  have hsorted := hhits.of_perm (ranking.sort_perm (·.score) hits)
  have hcut : ((ranking.sort (·.score) hits).take limit |>.filter fun hit =>
      residual.accepts hit.item).Sublist (ranking.sort (·.score) hits) :=
    List.filter_sublist.trans (List.take_sublist _ _)
  rw [top, finishHits_eq (hsorted.of_sublist (List.take_sublist _ _)),
    sort_of_pairwise (hsorted.of_sublist hcut) ((pairwise_sort hhits).sublist hcut)]

/-- Without a residual every hit passes. -/
theorem filter_accepts_of_isEmpty (h : residual.isEmpty = true) (hits : List Hit) :
    (hits.filter fun hit => residual.accepts hit.item) = hits := by
  refine List.filter_eq_self.2 fun hit _ => ?_
  rw [Filter.accepts, List.isEmpty_iff.1 h, List.all_nil]

/-- **A result does not change when the hits are ranked and cut before**, at `k` where
no residual is left, and nowhere else. -/
theorem finishHits_top (hhits : Comparable (·.score) hits)
    (hcut : residual.isEmpty = true → limit = k)
    (hall : residual.isEmpty = false → hits.length ≤ limit) :
    finishHits ranking (ranking.top (·.score) limit hits) residual k =
      finishHits ranking hits residual k := by
  rw [finishHits_of_top hhits, finishHits_eq hhits, ← filter_sort_eq hhits]
  congr 2
  cases hempty : residual.isEmpty with
  | true =>
    rw [filter_accepts_of_isEmpty hempty, filter_accepts_of_isEmpty hempty, hcut hempty,
      List.take_take, Nat.min_self]
  | false =>
    have hlength : (ranking.sort (·.score) hits).length ≤ limit := by
      rw [(ranking.sort_perm _ hits).length_eq]
      exact hall hempty
    rw [List.take_of_length_le hlength]

end Results

/-- A result shows ids of the hits that it is made of. -/
theorem mem_ids_finishHits {ranking : Ranking} {hits : List Hit} {residual : Filter} {k : Nat}
    {id : String} (h : id ∈ (finishHits ranking hits residual k).ids) :
    ∃ hit ∈ hits, hit.item.id = id := by
  obtain ⟨kept, hkept, rfl⟩ := List.mem_map.1 h
  have hmem := ranking.mem_of_mem_top _ ((ranking.sort_perm _ _).mem_iff.1 hkept)
  -- a hit that is kept is one of those found, with reserved metadata left out
  obtain ⟨hit, hhit, rfl⟩ := List.mem_map.1 hmem
  exact ⟨hit, (List.mem_filter.1 hhit).1, rfl⟩

end VectorBridge
