import Mathlib.Data.List.Nodup
import VectorBridge.Proofs.Keyed
/-!
# Placing entries

Servers that keep rows in the order they were first written put a row in place
of the one with its key, or at the end. Where keys are distinct they stay so,
and no other row with the key is left.
-/

namespace VectorBridge

variable {α κ : Type}

/-- Puts an entry in place of the first one that passes a test, or at the end. -/
def placeBy (p : α → Bool) (a : α) : List α → List α
  | [] => [a]
  | b :: rest => if p b then a :: rest else b :: placeBy p a rest

namespace placeBy

variable {p : α → Bool} {a b : α} {l : List α} {key : α → κ}

/-- Placing goes along with a map that the tests go along with. -/
theorem map_eq {β : Type} (f : α → β) (q : β → Bool) (a : α) (l : List α) :
    placeBy q (f a) (l.map f) = (placeBy (fun b => q (f b)) a l).map f := by
  induction l with
  | nil => rfl
  | cons b rest ih =>
    rw [List.map_cons, placeBy, placeBy, ih]
    split <;> rfl

theorem eq_or_mem_of_mem (h : b ∈ placeBy p a l) : b = a ∨ b ∈ l := by
  induction l with
  | nil => exact .inl (List.mem_singleton.1 h)
  | cons c rest ih =>
    rw [placeBy] at h
    split at h
    · exact (List.mem_cons.1 h).imp_right (List.mem_cons_of_mem c)
    · rcases List.mem_cons.1 h with rfl | hmem
      · exact .inr List.mem_cons_self
      · exact (ih hmem).imp_right (List.mem_cons_of_mem c)

theorem map_of_any (hp : ∀ b ∈ l, p b = true ↔ key b = key a) (h : key a ∈ l.map key) :
    (placeBy p a l).map key = l.map key := by
  induction l with
  | nil => cases h
  | cons b rest ih =>
    rw [List.forall_mem_cons] at hp
    rw [placeBy]
    split
    · rename_i hb
      rw [List.map_cons, List.map_cons, hp.1.1 hb]
    · rename_i hb
      have hne : key a ≠ key b := fun heq => hb (hp.1.2 heq.symm)
      rw [List.map_cons, List.mem_cons] at h
      rw [List.map_cons, List.map_cons, ih hp.2 (h.resolve_left hne)]

theorem eq_append (hp : ∀ b ∈ l, p b = true ↔ key b = key a) (h : key a ∉ l.map key) :
    placeBy p a l = l ++ [a] := by
  induction l with
  | nil => rfl
  | cons b rest ih =>
    rw [List.forall_mem_cons] at hp
    rw [List.map_cons, List.mem_cons, not_or] at h
    rw [placeBy, if_neg fun hb => h.1 (hp.1.1 hb).symm, ih hp.2 h.2, List.cons_append]

/-- Distinct keys stay distinct. -/
theorem nodup (hp : ∀ b ∈ l, p b = true ↔ key b = key a) (h : (l.map key).Nodup) :
    ((placeBy p a l).map key).Nodup := by
  by_cases ha : key a ∈ l.map key
  · rw [map_of_any hp ha]
    exact h
  · rw [eq_append hp ha, List.map_append]
    exact List.Nodup.append h (List.nodup_singleton _) (by simpa using ha)

/-- What is there is the new entry or an old one with another key. -/
theorem eq_or_mem (hp : ∀ b ∈ l, p b = true ↔ key b = key a) (h : (l.map key).Nodup)
    (hb : b ∈ placeBy p a l) : b = a ∨ b ∈ l ∧ key b ≠ key a := by
  induction l with
  | nil => exact .inl (List.mem_singleton.1 hb)
  | cons c rest ih =>
    rw [List.forall_mem_cons] at hp
    rw [List.map_cons, List.nodup_cons] at h
    rw [placeBy] at hb
    split at hb
    · rename_i hc
      refine (List.mem_cons.1 hb).imp_right fun hmem => ⟨List.mem_cons_of_mem _ hmem, ?_⟩
      rintro heq
      exact h.1 (hp.1.1 hc ▸ heq ▸ List.mem_map_of_mem hmem)
    · rename_i hc
      rcases List.mem_cons.1 hb with rfl | hmem
      · exact .inr ⟨List.mem_cons_self, fun heq => hc (hp.1.2 heq)⟩
      · exact (ih hp.2 h.2 hmem).imp_right fun hold => ⟨List.mem_cons_of_mem _ hold.1, hold.2⟩

/-- **What is there** is the new entry, and the old ones with other keys. -/
theorem mem_iff (hp : ∀ b ∈ l, p b = true ↔ key b = key a) (h : (l.map key).Nodup) :
    b ∈ placeBy p a l ↔ b = a ∨ b ∈ l ∧ key b ≠ key a := by
  refine ⟨eq_or_mem hp h, fun hb => ?_⟩
  clear h
  induction l with
  | nil => exact List.mem_singleton.2 (hb.resolve_right fun hold => List.not_mem_nil hold.1)
  | cons c rest ih =>
    rw [List.forall_mem_cons] at hp
    rw [placeBy]
    split
    · rename_i hc
      -- the entry that is replaced has the key of the new one
      rcases hb with rfl | ⟨hmem, hne⟩
      · exact List.mem_cons_self
      · rcases List.mem_cons.1 hmem with rfl | hmem
        · exact absurd (hp.1.1 hc) hne
        · exact List.mem_cons_of_mem _ hmem
    · rcases hb with rfl | ⟨hmem, hne⟩
      · exact List.mem_cons_of_mem _ (ih hp.2 (.inl rfl))
      · rcases List.mem_cons.1 hmem with rfl | hmem
        · exact List.mem_cons_self
        · exact List.mem_cons_of_mem _ (ih hp.2 (.inr ⟨hmem, hne⟩))

/-- The key of the new entry finds the new entry, and every other key what it found
before. -/
theorem find?_eq [DecidableEq κ] (hp : ∀ b ∈ l, p b = true ↔ key b = key a) (k : κ) :
    (placeBy p a l).find? (fun b => key b = k) =
      if key a = k then some a else l.find? fun b => key b = k := by
  induction l with
  | nil =>
    rw [placeBy, List.find?_cons]
    by_cases hk : key a = k <;> simp [hk]
  | cons b rest ih =>
    rw [List.forall_mem_cons] at hp
    have ih := ih hp.2
    rw [placeBy]
    split
    · rename_i hb
      have hkey := hp.1.1 hb
      by_cases hk : key a = k <;> simp [hk, hkey]
    · rename_i hb
      by_cases hk : key b = k
      · have hne : key a ≠ k := fun heq => hb (hp.1.2 (hk.trans heq.symm))
        simp [hk, hne]
      · simpa [hk] using ih

/-- Placing an entry that is there changes nothing. -/
theorem eq_self (hp : ∀ b ∈ l, p b = true ↔ key b = key a) (h : (l.map key).Nodup) (ha : a ∈ l) :
    placeBy p a l = l := by
  induction l with
  | nil => cases ha
  | cons b rest ih =>
    rw [List.forall_mem_cons] at hp
    rw [List.map_cons, List.nodup_cons] at h
    rw [placeBy]
    rcases List.mem_cons.1 ha with rfl | hrest
    · rw [if_pos (hp.1.2 rfl)]
    · have hne : ¬ p b = true := fun hb => h.1 (hp.1.1 hb ▸ List.mem_map_of_mem hrest)
      rw [if_neg hne, ih hp.2 h.2 hrest]

end placeBy

/-- **Putting entries of distinct keys one after the other** leaves them all, and
the old ones with other keys, when each put leaves its entry and those with other
keys in a list that can be put to again. -/
theorem mem_foldl_put {put : α → List α → List α} {key : α → κ} {P : α → Prop}
    {J : List α → Prop}
    (hput : ∀ {a l}, P a → J l →
      J (put a l) ∧ ∀ b, b ∈ put a l ↔ b = a ∨ b ∈ l ∧ key b ≠ key a)
    {as l : List α} (has : ∀ a ∈ as, P a) (hl : J l) (hnew : (as.map key).Nodup) {b : α} :
    b ∈ as.foldl (fun l a => put a l) l ↔ b ∈ as ∨ b ∈ l ∧ key b ∉ as.map key := by
  induction as generalizing l with
  | nil => simp
  | cons a as ih =>
    rw [List.forall_mem_cons] at has
    rw [List.map_cons, List.nodup_cons] at hnew
    obtain ⟨hnext, hmem⟩ := hput has.1 hl
    rw [List.foldl_cons, ih has.2 hnext hnew.2, hmem, List.mem_cons, List.map_cons,
      List.mem_cons, not_or]
    constructor
    · rintro (hb | ⟨rfl | ⟨hb, hne⟩, hlater⟩)
      · exact .inl (.inr hb)
      · exact .inl (.inl rfl)
      · exact .inr ⟨hb, hne, hlater⟩
    · rintro ((rfl | hb) | ⟨hb, hne, hlater⟩)
      · exact .inr ⟨.inl rfl, hnew.1⟩
      · exact .inl hb
      · exact .inr ⟨.inr ⟨hb, hne⟩, hlater⟩

/-- Putting entries changes nothing when no put does. -/
theorem foldl_put_self {σ : Type} {f : σ → α → σ} {as : List α} {s : σ}
    (h : ∀ a ∈ as, f s a = s) : as.foldl f s = s := by
  induction as with
  | nil => rfl
  | cons a as ih =>
    rw [List.forall_mem_cons] at h
    rw [List.foldl_cons, h.1, ih h.2]

/-! ## Looking entries up -/

section LookUp

variable {σ : Type} {put : α → σ → σ} {key : α → κ} {P : α → Prop} {J : σ → Prop}
variable {as : List α} {s : σ} (look : κ → σ → Option α)

/-- A key that nothing is put under finds what it found before. -/
theorem lookup_foldl_put_of_not_mem
    (hput : ∀ {a s}, P a → J s → J (put a s) ∧ look (key a) (put a s) = some a ∧
      ∀ k, key a ≠ k → look k (put a s) = look k s)
    (has : ∀ a ∈ as, P a) (hs : J s) {k : κ} (hk : k ∉ as.map key) :
    look k (as.foldl (fun s a => put a s) s) = look k s := by
  induction as generalizing s with
  | nil => rfl
  | cons a as ih =>
    rw [List.forall_mem_cons] at has
    rw [List.map_cons, List.mem_cons, not_or] at hk
    obtain ⟨hnext, -, hothers⟩ := hput has.1 hs
    rw [List.foldl_cons, ih has.2 hnext hk.2, hothers k (Ne.symm hk.1)]

/-- **Entries of distinct keys that are put one after the other** are found, each
under its key. -/
theorem lookup_foldl_put
    (hput : ∀ {a s}, P a → J s → J (put a s) ∧ look (key a) (put a s) = some a ∧
      ∀ k, key a ≠ k → look k (put a s) = look k s)
    (has : ∀ a ∈ as, P a) (hs : J s) (hnew : (as.map key).Nodup) {a : α} (ha : a ∈ as) :
    look (key a) (as.foldl (fun s a => put a s) s) = some a := by
  induction as generalizing s with
  | nil => cases ha
  | cons b as ih =>
    rw [List.forall_mem_cons] at has
    rw [List.map_cons, List.nodup_cons] at hnew
    obtain ⟨hnext, hfound, -⟩ := hput has.1 hs
    rw [List.foldl_cons]
    rcases List.mem_cons.1 ha with rfl | hlater
    · rw [lookup_foldl_put_of_not_mem look hput has.2 hnext hnew.1, hfound]
    · exact ih has.2 hnext hnew.2 hlater

end LookUp

/-- **Entries of distinct keys that are inserted again** into an ascending list change
nothing. -/
theorem Keyed.Ascending.foldl_insert_again [DecidableEq κ] [LT κ] [DecidableLT κ]
    [Std.Irrefl (α := κ) (· < ·)] [Trans (α := κ) (· < ·) (· < ·) (· < ·)]
    [Std.Trichotomous (α := κ) (· < ·)] {m : Keyed κ α} (h : m.Ascending) {key : α → κ}
    {as : List α} (hnew : (as.map key).Nodup) :
    as.foldl (fun m a => Keyed.insert (key a) a m)
        (as.foldl (fun m a => Keyed.insert (key a) a m) m) =
      as.foldl (fun m a => Keyed.insert (key a) a m) m := by
  have hput : ∀ {a : α} {m : Keyed κ α}, True → m.Ascending →
      (Keyed.insert (key a) a m).Ascending ∧
        Keyed.get? (key a) (Keyed.insert (key a) a m) = some a ∧
        ∀ k, key a ≠ k → Keyed.get? k (Keyed.insert (key a) a m) = Keyed.get? k m :=
    fun _ hm => ⟨hm.insert _ _, Keyed.get?_insert_self _ _ _,
      fun k hne => Keyed.get?_insert_of_ne hne _ _⟩
  have hkept : ∀ {as : List α} {m : Keyed κ α}, m.Ascending →
      (as.foldl (fun m a => Keyed.insert (key a) a m) m).Ascending := by
    intro as
    induction as with
    | nil => exact fun hm => hm
    | cons a as ih => exact fun hm => ih (hm.insert _ _)
  exact foldl_put_self fun a ha => (hkept h).insert_of_get?
    (lookup_foldl_put Keyed.get? hput (fun _ _ => trivial) h hnew ha)

end VectorBridge
