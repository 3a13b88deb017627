import VectorBridge.Proofs.Family.Declaring
import VectorBridge.Proofs.Postgres.Storage
import VectorBridge.Proofs.Qdrant.Storage
/-!
# Declared widths on Qdrant and PostgreSQL

Both servers fix the width of a collection when it is created and refuse a write with
a vector of another one. The adapters ask for that width, or have it remembered, before
they write anything, so neither server ever has to refuse: in every run the error about
the width comes from the adapter.
-/

namespace VectorBridge

namespace Qdrant

variable {m : Memory} {name : String}

/-- Whether a server refuses to write items, because of the width of some vector. -/
def refuses (name : String) (items : List Item) (m : Memory) : Bool :=
  (Keyed.get? name m.collections).any fun s => (s.misfit? (items.map Point.ofItem)).isSome

/-- A change of a collection is an edit of it, when its width stays. -/
theorem edited_changing {new : List Embedding} {f : Stored → Except TransportError Stored}
    (hf : ∀ s s', f s = .ok s' → s'.width = s.width ∧ ∀ item ∈ storage.items s',
      item ∈ storage.items s ∨ ∀ v, item.embedding = some v → v ∈ new) (name : String)
    (m : Memory) : storage.Edited Stored.width new name m (Memory.changing name f m).2 := by
  cases hget : Keyed.get? name m.collections with
  | none =>
    simp only [Memory.changing, Memory.find?, hget]
    exact .inl rfl
  | some s =>
    cases hfs : f s with
    | error e =>
      rw [changing_of_error hget hfs]
      exact .inl rfl
    | ok s' =>
      rw [changing_of_ok hget hfs]
      obtain ⟨hwidth, hitems⟩ := hf s s' hfs
      exact .inr ⟨s, s', hget, changed_insert m name s', hwidth, hitems⟩

/-- Points that are kept are items that are kept. -/
theorem edited_filter (p : Stored → Uuid × Point → Bool) (name : String) (m : Memory) :
    storage.Edited Stored.width [] name m
      (Memory.changing name (fun s => .ok { s with points := s.points.filter (p s) }) m).2 := by
  refine edited_changing (fun s s' hs' => ?_) name m
  cases hs'
  refine ⟨rfl, fun item hitem => ?_⟩
  obtain ⟨e, he, rfl⟩ := List.mem_map.1 hitem
  exact .inl (List.mem_map_of_mem (List.mem_filter.1 he).1)

theorem edited_write (name : String) (items : List Item) (m : Memory) :
    storage.Edited Stored.width (items.filterMap (·.embedding)) name m
      (family.write name items m).2 := by
  refine Step.bind_cases (P := fun r => storage.Edited Stored.width _ name m r.2)
    (fun e m' hkeys => ?_) fun _ m' hkeys => ?_
  · obtain ⟨-, rfl⟩ := Prod.mk.inj hkeys
    exact .inl rfl
  obtain ⟨-, rfl⟩ := Prod.mk.inj hkeys
  rw [Session.toAction_snd]
  refine edited_changing (fun s s' hs' => ?_) name m
  split at hs'
  · cases hs'
  cases hs'
  refine ⟨rfl, fun item hitem => ?_⟩
  obtain ⟨e, he, rfl⟩ := List.mem_map.1 hitem
  rcases Keyed.mem_of_mem_foldl_insert he with he | he
  · exact .inl (List.mem_map_of_mem he)
  · obtain ⟨item, hitem, hpoint⟩ := List.mem_map.1 he
    refine .inr fun v hv => List.mem_filterMap.2 ⟨item, hitem, ?_⟩
    rw [← hv]
    show (Point.ofItem item).vector = e.2.vector
    rw [hpoint]

/-- What a server declares and what it does with widths. -/
theorem declaring : family.Declaring storage Stored.width refuses where
  reads := readsOnly
  attach _ _ := rfl
  named _ := rfl
  inspected {name m h scoring} hinspect := by
    cases hget : Keyed.get? name m.collections with
    | none =>
      simp only [family, Memory.reading, Call.read_apply, Memory.find?, hget,
        Except.map] at hinspect
      cases hinspect
    | some s =>
      simp only [family, Memory.reading, Call.read_apply, Memory.find?, hget,
        Except.map] at hinspect
      cases hinspect
      exact ⟨rfl, s, hget, rfl⟩
  declared {name m s} hheld := by
    have hget : Keyed.get? name m.collections = some s := hheld
    simp only [family, Memory.reading, Call.read_apply, Memory.find?, hget, Except.map]
  undeclared {name m} hheld := by
    have hget : Keyed.get? name m.collections = none := hheld
    simp only [family, Memory.reading, Call.read_apply, Memory.find?, hget, Except.map]
    exact ⟨_, rfl⟩
  create {c name w metric m m'} hcreate := by
    simp only [family, Memory.create] at hcreate
    split at hcreate
    · cases hcreate
    · cases hcreate
      exact ⟨_, changed_insert m name _, rfl, rfl⟩
  create_error {c name w metric m e m'} hcreate := by
    simp only [family, Memory.create] at hcreate
    split at hcreate
    · cases hcreate
      rfl
    · cases hcreate
  drop {name m m'} hdrop := by
    simp only [family, Memory.drop] at hdrop
    split at hdrop
    · cases hdrop
    · cases hdrop
      exact ⟨Keyed.get?_erase_self _ _, fun _ hne => Keyed.get?_erase_of_ne hne.symm _⟩
  drop_error {name m e m'} hdrop := by
    simp only [family, Memory.drop] at hdrop
    split at hdrop
    · cases hdrop
      rfl
    · cases hdrop
  eraseIds name ids m := by
    have hedited := edited_filter
      (fun _ e => !(ids.map fun id => (uuidKey id).1).contains e.1) name m
    simp only [family, Memory.erase, Keyed.foldl_erase]
    exact hedited
  eraseWhere name f m := edited_filter (fun _ e => !f.holds e.2.payload) name m
  write := edited_write
  misfit_of_refuses {name items m} hrefuses := by
    obtain ⟨s, hget, hmisfit⟩ := (Option.any_eq_true _ _).1 hrefuses
    obtain ⟨v, hv, hwidth⟩ := List.find?_isSome.1 hmisfit
    obtain ⟨p, hp, hvector⟩ := List.mem_filterMap.1 hv
    obtain ⟨item, hitem, rfl⟩ := List.mem_map.1 hp
    exact ⟨s, hget, v, List.mem_filterMap.2 ⟨item, hitem, hvector⟩, of_decide_eq_true hwidth⟩

end Qdrant

namespace Postgres

variable {m : Memory} {name : String}

/-- Whether a database refuses to write items, because of the width of some vector. -/
def refuses (name : String) (items : List Item) (m : Memory) : Bool :=
  (Keyed.get? name m.tables).any fun t => (t.misfit? items).isSome

/-- A change of a table is an edit of it, when its width stays. -/
theorem edited_changing {new : List Embedding} {f : Table → Except TransportError Table}
    (hf : ∀ t t', f t = .ok t' → t'.width = t.width ∧ ∀ item ∈ storage.items t',
      item ∈ storage.items t ∨ ∀ v, item.embedding = some v → v ∈ new) (name : String)
    (m : Memory) : storage.Edited Table.width new name m (Memory.changing name f m).2 := by
  unfold Memory.changing Memory.find?
  cases hget : Keyed.get? name m.tables with
  | none => exact .inl rfl
  | some t =>
    simp only
    cases hft : f t with
    | error e => exact .inl rfl
    | ok t' =>
      obtain ⟨hwidth, hitems⟩ := hf t t' hft
      exact .inr ⟨t, t', hget, changed_insert m name t', hwidth, hitems⟩

/-- Rows that are kept are items that are kept. -/
theorem edited_filter (p : Table → String × Item → Bool) (name : String) (m : Memory) :
    storage.Edited Table.width [] name m
      (Memory.changing name (fun t => .ok { t with rows := t.rows.filter (p t) }) m).2 := by
  refine edited_changing (fun t t' ht' => ?_) name m
  cases ht'
  refine ⟨rfl, fun item hitem => ?_⟩
  obtain ⟨e, he, rfl⟩ := List.mem_map.1 hitem
  exact .inl (List.mem_map_of_mem (List.mem_filter.1 he).1)

theorem edited_write (name : String) (items : List Item) (m : Memory) :
    storage.Edited Table.width (items.filterMap (·.embedding)) name m
      (family.write name items m).2 := by
  simp only [family, Session.toAction_snd]
  refine edited_changing (fun t t' ht' => ?_) name m
  split at ht'
  · cases ht'
  cases ht'
  refine ⟨rfl, fun item hitem => ?_⟩
  obtain ⟨e, he, rfl⟩ := List.mem_map.1 hitem
  rcases Keyed.mem_of_mem_foldl_insert he with he | he
  · exact .inl (List.mem_map_of_mem he)
  · exact .inr fun v hv => List.mem_filterMap.2 ⟨e.2, he, hv⟩

/-- What a database declares and what it does with widths. -/
theorem declaring : family.Declaring storage Table.width refuses where
  reads := readsOnly
  attach _ _ := rfl
  named _ := rfl
  inspected {name m h scoring} hinspect := by
    cases hget : Keyed.get? name m.tables with
    | none =>
      simp only [family, Memory.reading, Call.read_apply, Memory.find?, hget,
        Except.map] at hinspect
      cases hinspect
    | some t =>
      simp only [family, Memory.reading, Call.read_apply, Memory.find?, hget,
        Except.map] at hinspect
      cases hinspect
      exact ⟨rfl, t, hget, rfl⟩
  declared {name m t} hheld := by
    have hget : Keyed.get? name m.tables = some t := hheld
    simp only [family, Memory.reading, Call.read_apply, Memory.find?, hget, Except.map]
  undeclared {name m} hheld := by
    have hget : Keyed.get? name m.tables = none := hheld
    simp only [family, Memory.reading, Call.read_apply, Memory.find?, hget, Except.map]
    exact ⟨_, rfl⟩
  create {c name w metric m m'} hcreate := by
    simp only [family, Memory.create] at hcreate
    split at hcreate
    · cases hcreate
    · cases hcreate
      exact ⟨_, changed_insert m name _, rfl, rfl⟩
  create_error {c name w metric m e m'} hcreate := by
    simp only [family, Memory.create] at hcreate
    split at hcreate
    · cases hcreate
      rfl
    · cases hcreate
  drop {name m m'} hdrop := by
    simp only [family, Memory.drop] at hdrop
    split at hdrop
    · cases hdrop
    · cases hdrop
      exact ⟨Keyed.get?_erase_self _ _, fun _ hne => Keyed.get?_erase_of_ne hne.symm _⟩
  drop_error {name m e m'} hdrop := by
    simp only [family, Memory.drop] at hdrop
    split at hdrop
    · cases hdrop
      rfl
    · cases hdrop
  eraseIds name ids m := by
    have hedited := edited_filter (fun _ e => !ids.contains e.1) name m
    simp only [family, Memory.erase, Keyed.foldl_erase]
    exact hedited
  eraseWhere name w m := edited_filter (fun _ e => !w.holds e.2) name m
  write := edited_write
  misfit_of_refuses {name items m} hrefuses := by
    obtain ⟨t, hget, hmisfit⟩ := (Option.any_eq_true _ _).1 hrefuses
    obtain ⟨v, hv, hwidth⟩ := List.find?_isSome.1 hmisfit
    exact ⟨t, hget, v, hv, of_decide_eq_true hwidth⟩

end Postgres

namespace Connection

/-- **Every misfit is found before the server does.** After any run on Qdrant or
PostgreSQL the widths remembered are the widths declared, all stored vectors have them, and
a batch or a query with a vector of another width is refused for it; and what a server would
do with a write that it refuses makes no difference to the run. -/
theorem misfits_found_before_server (c : Context) (calls : List AdapterCall) :
    (Qdrant.family.FindsMisfits Qdrant.storage
        (Qdrant.family.adapter.run calls (.start .empty c)).2 ∧
      ∀ instead, (Qdrant.family.rewriting Qdrant.refuses instead).adapter.run calls
        (.start .empty c) = Qdrant.family.adapter.run calls (.start .empty c)) ∧
    (Postgres.family.FindsMisfits Postgres.storage
        (Postgres.family.adapter.run calls (.start .empty c)).2 ∧
      ∀ instead, (Postgres.family.rewriting Postgres.refuses instead).adapter.run calls
        (.start .empty c) = Postgres.family.adapter.run calls (.start .empty c)) :=
  ⟨Qdrant.declaring.run_findsMisfits (fun _ => rfl) c calls,
    Postgres.declaring.run_findsMisfits (fun _ => rfl) c calls⟩

end Connection

end VectorBridge
