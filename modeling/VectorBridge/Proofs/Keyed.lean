import Std.Data.ExtTreeMap
import VectorBridge.Keyed
/-!
# Keyed lists in order

The look-up laws hold of any list. What an iteration shows rests on the order
as well: `insert`, `erase` and filters keep the keys ascending, and of ascending
lists the entries are the look-ups, so two of them with equal look-ups are one.
-/

namespace VectorBridge

/-! ## Lists of pairs -/

section Pairs

variable {κ α : Type} [BEq κ] [LawfulBEq κ] {l : List (κ × α)} {k : κ} {v : α}

theorem mem_of_lookup (h : l.lookup k = some v) : (k, v) ∈ l := by
  obtain ⟨before, after, rfl, -⟩ := List.lookup_eq_some_iff.1 h
  exact List.mem_append_right _ List.mem_cons_self

theorem exists_lookup_of_mem (h : (k, v) ∈ l) : ∃ v', l.lookup k = some v' := by
  cases hlookup : l.lookup k with
  | none =>
    have hne := List.lookup_eq_none_iff.1 hlookup _ h
    exact absurd rfl (bne_iff_ne.1 hne)
  | some v' => exact ⟨v', rfl⟩

end Pairs

namespace Keyed

variable {κ α : Type} [DecidableEq κ]

/-! ## Entries and look-ups -/

theorem mem_of_get? {k : κ} {v : α} {m : Keyed κ α} (h : get? k m = some v) : (k, v) ∈ m := by
  induction m with
  | nil => cases h
  | cons e rest ih =>
    obtain ⟨k', v'⟩ := e
    rw [get?_cons] at h
    split at h
    · rename_i hk
      obtain rfl := Option.some.inj h
      exact hk ▸ List.mem_cons_self
    · exact List.mem_cons_of_mem _ (ih h)

theorem hasKey_eq_isSome (k : κ) (m : Keyed κ α) : hasKey k m = (get? k m).isSome := by
  induction m with
  | nil => rfl
  | cons e rest ih =>
    obtain ⟨k', v'⟩ := e
    rw [hasKey, List.any_cons, get?_cons]
    by_cases h : k' = k
    · simp [h]
    · simpa [h, hasKey] using ih

theorem get?_insert [LT κ] [DecidableLT κ] (k k' : κ) (v : α) (m : Keyed κ α) :
    get? k' (insert k v m) = if k = k' then some v else get? k' m := by
  by_cases h : k = k'
  · rw [if_pos h, ← h, get?_insert_self]
  · rw [if_neg h, get?_insert_of_ne h]

theorem get?_erase (k k' : κ) (m : Keyed κ α) :
    get? k' (erase k m) = if k = k' then none else get? k' m := by
  by_cases h : k = k'
  · rw [if_pos h, ← h, get?_erase_self]
  · rw [if_neg h, get?_erase_of_ne h]

/-- What is inserted again is replaced where it stands. -/
theorem insert_insert [LT κ] [DecidableLT κ] (k : κ) (v v' : α) (m : Keyed κ α) :
    insert k v' (insert k v m) = insert k v' m := by
  induction m with
  | nil => simp [insert]
  | cons e rest ih =>
    obtain ⟨k', v''⟩ := e
    by_cases hk : k' = k
    · simp [insert, hk]
    · by_cases hlt : k < k' <;> simp [insert, hk, hlt, ih]

/-- What is inserted may be taken for one more of the values that are there. -/
theorem forall_insert [LT κ] [DecidableLT κ] {P : κ → α → Prop} {m : Keyed κ α}
    (h : ∀ k v, get? k m = some v → P k v) {k : κ} {v : α} (hv : P k v) :
    ∀ k' v', get? k' (insert k v m) = some v' → P k' v' := by
  intro k' v' hget
  rw [get?_insert] at hget
  split at hget
  · rename_i hk
    obtain rfl := Option.some.inj hget
    exact hk ▸ hv
  · exact h k' v' hget

theorem forall_erase {P : κ → α → Prop} {m : Keyed κ α} (h : ∀ k v, get? k m = some v → P k v)
    (k : κ) : ∀ k' v', get? k' (erase k m) = some v' → P k' v' := by
  intro k' v' hget
  rw [get?_erase] at hget
  split at hget
  · cases hget
  · exact h k' v' hget

/-- Removing a key is leaving out its entries. -/
theorem erase_eq_filter (k : κ) (m : Keyed κ α) : erase k m = m.filter fun e => e.1 ≠ k := by
  induction m with
  | nil => rfl
  | cons e rest ih =>
    obtain ⟨k', v'⟩ := e
    rw [erase, List.filter_cons]
    by_cases h : k' = k <;> simp [h, ih]

theorem get?_map_values {β : Type} (f : α → β) (k : κ) (m : Keyed κ α) :
    get? k (m.map fun e => (e.1, f e.2)) = (get? k m).map f := by
  induction m with
  | nil => rfl
  | cons e rest ih =>
    rw [List.map_cons, get?_cons, ih, get?]
    split <;> rfl

/-- What is left out by its key is not found, and the rest is found as before. -/
theorem get?_filter_key (p : κ → Bool) (k : κ) (m : Keyed κ α) :
    get? k (m.filter fun e => p e.1) = if p k then get? k m else none := by
  induction m with
  | nil => simp
  | cons e rest ih =>
    obtain ⟨k', v⟩ := e
    rw [List.filter_cons, get?_cons]
    by_cases hk : k' = k
    · by_cases hp : p k = true <;> simp [hk, hp, ih, get?_cons]
    · by_cases hp : p k' = true <;> simp [hk, hp, ih, get?_cons]

/-- Where no key has two entries, an entry is found if it is not left out by its value. -/
theorem get?_filter_value {m : Keyed κ α} (h : (keys m).Nodup) (p : α → Bool) (k : κ) :
    get? k (m.filter fun e => p e.2) = (get? k m).filter p := by
  induction m with
  | nil => rfl
  | cons e rest ih =>
    obtain ⟨k', v⟩ := e
    obtain ⟨hfirst, hrest⟩ := List.nodup_cons.1 h
    have hrest := ih hrest
    rw [get?_cons]
    by_cases hk : k' = k
    · subst hk
      rw [if_pos rfl, Option.filter_some]
      by_cases hp : p v = true
      · simp [hp, get?_cons]
      · have hnone : get? k' rest = none := by
          cases hget : get? k' rest with
          | none => rfl
          | some v' => exact absurd (List.mem_map_of_mem (mem_of_get? hget)) hfirst
        simp [hp, hrest, hnone]
    · rw [if_neg hk, ← hrest, List.filter_cons]
      split
      · rw [get?_cons, if_neg hk]
      · rfl

/-- Removing some keys is leaving out their entries. -/
theorem foldl_erase (ks : List κ) (m : Keyed κ α) :
    ks.foldl (fun m k => erase k m) m = m.filter fun e => !ks.contains e.1 := by
  induction ks generalizing m with
  | nil => exact (List.filter_eq_self.2 fun _ _ => rfl).symm
  | cons k ks ih =>
    rw [List.foldl_cons, ih, erase_eq_filter, List.filter_filter]
    refine List.filter_congr fun e _ => ?_
    by_cases h : e.1 = k <;> simp [h]

/-- What is inserted or was there before is what is there after. -/
theorem mem_of_mem_insert [LT κ] [DecidableLT κ] {k : κ} {v : α} {m : Keyed κ α} {e : κ × α}
    (h : e ∈ insert k v m) : e = (k, v) ∨ e ∈ m := by
  induction m with
  | nil => exact .inl (by simpa [insert] using h)
  | cons e' rest ih =>
    obtain ⟨k', v'⟩ := e'
    rw [insert] at h
    split at h
    · exact (List.mem_cons.1 h).imp_right (List.mem_cons_of_mem _)
    · split at h
      · exact List.mem_cons.1 h
      · rcases List.mem_cons.1 h with h | h
        · exact .inr (h ▸ List.mem_cons_self)
        · exact (ih h).imp_right (List.mem_cons_of_mem _)

/-- The same of values that are put one after the other, each under its key. -/
theorem mem_of_mem_foldl_insert [LT κ] [DecidableLT κ] {key : α → κ} {values : List α}
    {m : Keyed κ α} {e : κ × α} (h : e ∈ values.foldl (fun m v => insert (key v) v m) m) :
    e ∈ m ∨ e.2 ∈ values := by
  induction values generalizing m with
  | nil => exact .inl h
  | cons v values ih =>
    rcases ih h with h | h
    · rcases mem_of_mem_insert h with rfl | h
      · exact .inr List.mem_cons_self
      · exact .inl h
    · exact .inr (List.mem_cons_of_mem _ h)

omit [DecidableEq κ] in
/-- A sum over all values is at least what any value contributes. -/
theorem measure_le_total (measure : α → Nat) {v : α} {m : Keyed κ α} (h : v ∈ values m) :
    measure v ≤ total measure m := by
  have hsum : ∀ (m : Keyed κ α) (n : Nat), n ≤ m.foldl (fun n e => n + measure e.2) n ∧
      (v ∈ values m → measure v ≤ m.foldl (fun n e => n + measure e.2) n) := by
    intro m
    induction m with
    | nil => exact fun n => ⟨Nat.le_refl n, fun hmem => by cases hmem⟩
    | cons e rest ih =>
      intro n
      obtain ⟨hle, hmem⟩ := ih (n + measure e.2)
      rw [List.foldl_cons]
      refine ⟨by omega, fun hv => ?_⟩
      rcases List.mem_cons.1 hv with rfl | hv
      · exact Nat.le_trans (Nat.le_add_left _ n) hle
      · exact hmem hv
  exact (hsum m 0).2 h

/-! ## Ascending keys -/

/-- The keys ascend, so no key occurs twice. -/
def Ascending [LT κ] (m : Keyed κ α) : Prop := m.Pairwise fun a b => a.1 < b.1

section Ascending

variable [LT κ] {m : Keyed κ α}

omit [DecidableEq κ] in
theorem Ascending.filter (h : m.Ascending) (p : κ × α → Bool) : Ascending (m.filter p) :=
  List.Pairwise.filter p h

theorem Ascending.erase (h : m.Ascending) (k : κ) : Ascending (erase k m) := by
  rw [erase_eq_filter]
  exact h.filter _

variable [Std.Irrefl (α := κ) (· < ·)]

/-- An entry of an ascending list is what its key looks up. -/
theorem Ascending.get?_of_mem (h : m.Ascending) {k : κ} {v : α} (hm : (k, v) ∈ m) :
    get? k m = some v := by
  induction m with
  | nil => cases hm
  | cons e rest ih =>
    obtain ⟨k', v'⟩ := e
    obtain ⟨hlt, hrest⟩ := List.pairwise_cons.1 h
    rw [get?_cons]
    rcases List.mem_cons.1 hm with hm | hm
    · cases hm
      exact if_pos rfl
    · rw [if_neg fun hk => Std.Irrefl.irrefl k (by simpa [hk] using hlt _ hm), ih hrest hm]

theorem Ascending.mem_iff (h : m.Ascending) {k : κ} {v : α} :
    (k, v) ∈ m ↔ get? k m = some v :=
  ⟨h.get?_of_mem, mem_of_get?⟩

omit [DecidableEq κ] in
theorem Ascending.nodup (h : m.Ascending) : m.Nodup :=
  List.Pairwise.imp (S := (· ≠ ·))
    (fun {a b} hlt heq => Std.Irrefl.irrefl (r := (· < ·)) a.1 (by simpa [heq] using hlt)) h

omit [DecidableEq κ] in
theorem Ascending.nodup_keys (h : m.Ascending) : (keys m).Nodup := by
  refine List.pairwise_map.2 (h.imp fun {a b} hlt heq => ?_)
  rw [heq] at hlt
  exact Std.Irrefl.irrefl b.1 hlt

/-- The values of an ascending list that a test singles out by their key are
what the key looks up. -/
theorem Ascending.filter_values (h : m.Ascending) {key : α → κ}
    (hkey : ∀ e ∈ m, key e.2 = e.1) (k : κ) :
    (values m).filter (fun v => key v = k) = (get? k m).toList := by
  induction m with
  | nil => rfl
  | cons e rest ih =>
    obtain ⟨k', v'⟩ := e
    obtain ⟨hlt, hrest⟩ := List.pairwise_cons.1 h
    have hk' : key v' = k' := hkey (k', v') List.mem_cons_self
    have ih := ih hrest fun e he => hkey e (List.mem_cons_of_mem _ he)
    rw [get?_cons]
    by_cases hk : k' = k
    · -- every later key is greater than this one
      have hnone : get? k rest = none := by
        rw [Option.eq_none_iff_forall_not_mem]
        exact fun v hv => Std.Irrefl.irrefl (r := (· < ·)) k
          (by simpa [hk] using hlt (k, v) (mem_of_get? hv))
      rw [hnone] at ih
      simp only [values, List.map_cons, List.filter_cons, hk', hk, decide_true, reduceIte,
        Option.toList_some] at ih ⊢
      rw [ih]
      rfl
    · simpa only [values, List.map_cons, List.filter_cons, hk', hk, decide_false, reduceIte,
        Bool.false_eq_true] using ih

variable [Trans (α := κ) (· < ·) (· < ·) (· < ·)]

/-- **Ascending lists with the same look-ups are one list.** -/
theorem Ascending.ext {m' : Keyed κ α} (h : m.Ascending) (h' : m'.Ascending)
    (hget : ∀ k, get? k m = get? k m') : m = m' := by
  -- two ascending lists with the same entries are permutations, and so equal
  have hasymm : ∀ a b : κ × α, a.1 < b.1 → b.1 < a.1 → a = b := fun a b hab hba =>
    absurd (Trans.trans hab hba) (Std.Irrefl.irrefl a.1)
  refine List.Perm.eq_of_pairwise (fun a b _ _ => hasymm a b) h h' ?_
  rw [List.perm_ext_iff_of_nodup h.nodup h'.nodup]
  exact fun e => by rw [h.mem_iff, h'.mem_iff, hget]

variable [DecidableLT κ] [Std.Trichotomous (α := κ) (· < ·)]

omit [Std.Irrefl (α := κ) (· < ·)] in
theorem Ascending.insert (h : m.Ascending) (k : κ) (v : α) : Ascending (insert k v m) := by
  induction m with
  | nil => exact List.pairwise_singleton _ _
  | cons e rest ih =>
    obtain ⟨k', v'⟩ := e
    obtain ⟨hlt, hrest⟩ := List.pairwise_cons.1 h
    rw [Keyed.insert]
    split
    · rename_i hk
      exact List.pairwise_cons.2 ⟨fun e he => hk ▸ hlt e he, hrest⟩
    · rename_i hk
      split
      · rename_i hkk
        refine List.pairwise_cons.2 ⟨fun e he => ?_, h⟩
        rcases List.mem_cons.1 he with rfl | he
        · exact hkk
        · exact Trans.trans hkk (hlt e he)
      · rename_i hkk
        -- the new key is neither that of the head nor before it, so it is after it
        have hk'k : k' < k :=
          Decidable.byContradiction fun hcon => hk (Std.Trichotomous.trichotomous k' k hcon hkk)
        refine List.pairwise_cons.2 ⟨fun e he => ?_, ih hrest⟩
        rcases mem_of_mem_insert he with rfl | he
        · exact hk'k
        · exact hlt e he

/-- Inserting what is there changes nothing. -/
theorem Ascending.insert_of_get? (h : m.Ascending) {k : κ} {v : α} (hget : get? k m = some v) :
    Keyed.insert k v m = m := by
  refine (h.insert k v).ext h fun k' => ?_
  rw [get?_insert]
  split
  · rename_i hk
    rw [← hk, hget]
  · rfl

/-- What is there after an insertion is what was inserted, and the entries of all
other keys. -/
theorem Ascending.mem_insert_iff (h : m.Ascending) {k : κ} {v : α} {e : κ × α} :
    e ∈ Keyed.insert k v m ↔ e = (k, v) ∨ e ∈ m ∧ e.1 ≠ k := by
  obtain ⟨k', v'⟩ := e
  rw [(h.insert k v).mem_iff, get?_insert, h.mem_iff]
  by_cases hk : k = k'
  · subst hk
    simp [eq_comm]
  · simp [hk, Ne.symm hk]

end Ascending

/-! ## The entries of a finite map -/

section Entries

variable {m : Std.ExtTreeMap String α}

theorem ascending_toList (m : Std.ExtTreeMap String α) : Ascending m.toList :=
  m.ordered_keys_toList.imp fun {a b} h => by
    exact compareOfLessAndEq_eq_lt.1 h

theorem get?_toList (m : Std.ExtTreeMap String α) (k : String) : get? k m.toList = m[k]? := by
  refine Option.ext fun v => ?_
  rw [← (ascending_toList m).mem_iff, Std.ExtTreeMap.mem_toList_iff_getElem?_eq_some]

/-- Inserting into a finite map is inserting into the list of its entries. -/
theorem toList_insert (m : Std.ExtTreeMap String α) (k : String) (v : α) :
    (m.insert k v).toList = insert k v m.toList := by
  refine (ascending_toList _).ext ((ascending_toList m).insert k v) fun k' => ?_
  rw [get?_toList, get?_insert, get?_toList, Std.ExtTreeMap.getElem?_insert]
  simp

end Entries

end Keyed

end VectorBridge
