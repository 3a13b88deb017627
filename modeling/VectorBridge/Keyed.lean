/-!
# Keyed lists

A finite map as a list of pairs in ascending key order. Metadata, JSON
objects, tables of a server and the caches of a client are all kept this
way, so an iteration order that an answer shows is the order of the data.
Look-up takes the first entry of a key, `insert` replaces or places, and
`erase` drops every entry of a key; the laws between the three hold of any
list, sorted or not.
-/

namespace VectorBridge

/-- A finite map, kept as pairs in ascending key order. -/
abbrev Keyed (κ : Type) (α : Type) : Type := List (κ × α)

namespace Keyed

variable {κ α : Type} [DecidableEq κ]

/-- The value stored under `k`. -/
def get? (k : κ) : Keyed κ α → Option α
  | [] => none
  | (k', v) :: rest => if k' = k then some v else get? k rest

/-- Whether some entry has the key `k`. -/
def hasKey (k : κ) (m : Keyed κ α) : Bool := m.any fun e => e.1 = k

/-- The keys, in order. -/
def keys (m : Keyed κ α) : List κ := m.map (·.1)

/-- The values, in the order of their keys. -/
def values (m : Keyed κ α) : List α := m.map (·.2)

/-- The sum of a measure over all values. -/
def total (measure : α → Nat) (m : Keyed κ α) : Nat := m.foldl (fun n e => n + measure e.2) 0

/-- Stores `v` under `k`: an entry of that key is replaced where it stands,
and a new key goes before the first larger one. -/
def insert [LT κ] [DecidableLT κ] (k : κ) (v : α) : Keyed κ α → Keyed κ α
  | [] => [(k, v)]
  | (k', v') :: rest =>
    if k' = k then (k, v) :: rest
    else if k < k' then (k, v) :: (k', v') :: rest
    else (k', v') :: insert k v rest

/-- Removes `k`. -/
def erase (k : κ) : Keyed κ α → Keyed κ α
  | [] => []
  | (k', v) :: rest => if k' = k then erase k rest else (k', v) :: erase k rest

/-- The map of a list of pairs; of two entries with one key the later wins. -/
def ofList [LT κ] [DecidableLT κ] (l : List (κ × α)) : Keyed κ α :=
  l.foldl (fun m e => insert e.1 e.2 m) []

@[simp] theorem get?_nil (k : κ) : get? k ([] : Keyed κ α) = none := rfl

theorem get?_cons (k k' : κ) (v : α) (m : Keyed κ α) :
    get? k ((k', v) :: m) = if k' = k then some v else get? k m := rfl

theorem get?_insert_self [LT κ] [DecidableLT κ] (k : κ) (v : α) (m : Keyed κ α) :
    get? k (insert k v m) = some v := by
  induction m with
  | nil => simp [insert, get?]
  | cons e rest ih =>
    obtain ⟨k', v'⟩ := e
    simp only [insert]
    split
    · simp [get?]
    · split
      · simp [get?]
      · rename_i hne _; simp [get?, hne, ih]

theorem get?_insert_of_ne [LT κ] [DecidableLT κ] {k k' : κ} (h : k ≠ k') (v : α)
    (m : Keyed κ α) : get? k' (insert k v m) = get? k' m := by
  induction m with
  | nil => simp [insert, get?, h]
  | cons e rest ih =>
    obtain ⟨k₁, v₁⟩ := e
    simp only [insert]
    split
    · rename_i he; subst he; simp [get?, h]
    · split
      · simp [get?, h]
      · simp [get?, ih]

theorem get?_erase_self (k : κ) (m : Keyed κ α) : get? k (erase k m) = none := by
  induction m with
  | nil => rfl
  | cons e rest ih =>
    simp only [erase]
    split
    · exact ih
    · rename_i h; simpa [get?, h] using ih

theorem get?_erase_of_ne {k k' : κ} (h : k ≠ k') (m : Keyed κ α) :
    get? k' (erase k m) = get? k' m := by
  induction m with
  | nil => rfl
  | cons e rest ih =>
    simp only [erase]
    split
    · rename_i hk; simp [get?, hk, h, ih]
    · simp [get?, ih]

end Keyed

end VectorBridge
