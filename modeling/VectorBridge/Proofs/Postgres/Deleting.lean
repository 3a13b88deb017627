import VectorBridge.Proofs.Postgres.Tracking
/-!
# Removing from a tracked catalog

Rows are removed by the conditions of a filter where no ids are given, by their
keys where no filter is, and where both are the items are fetched first. Each
way leaves the entries that the removal is not about.
-/

namespace VectorBridge

namespace Postgres

open Session

variable {c : Context} {s : Session Memory} {k : Catalog}
variable {name : String} {d : Shelf} {ids : List String} {f : Filter} {p : String × Item → Bool}

/-- A removal that is about nothing. -/
theorem untouched_follows (h : Tracks c s k) (hd : k[name]? = some d)
    (hnone : ∀ e ∈ d.items.toList, Shelf.isTarget ids f e.2 = false) :
    Follows c k (.ok (), s) (.ok (k.insert name (d.without ids f))) := by
  rcases h.represents.lookup name with ⟨-, hk⟩ | ⟨t, d', hm, hk, hw, hr⟩
  · simp [hd] at hk
  obtain rfl : d = d' := Option.some.inj (hd.symm.trans hk)
  have hrows : t.rows = (d.without ids f).items.toList := by
    rw [← Shelf.toList_without fun _ _ => rfl, hr,
      List.filter_eq_self.2 fun e he => by rw [hnone e he]; rfl]
  have hwidth : (d.without ids f).width = d.width := rfl
  refine ⟨rfl, h.replace hd hwidth (h.represents.replace (t := t) (fun other => ?_) hw hrows
    ((h.represents.filed name d hd).without ids f))⟩
  split
  · rename_i heq
    exact heq ▸ hm
  · rfl

/-- A call that leaves of a table the rows that a removal leaves of the
collection, and the steps around it. -/
theorem erased_follows (h : Tracks c s k) (hd : k[name]? = some d)
    (hp : ∀ e ∈ d.items.toList, p e = !Shelf.isTarget ids f e.2)
    {erase : Call Memory Unit}
    (herase : erase = Memory.changing name fun t => .ok { t with rows := t.rows.filter p }) :
    Follows c k
      ((do
        let _ ← call (family.attach name)
        call erase
        dropListings name) s)
      (.ok (k.insert name (d.without ids f))) := by
  rcases h.represents.lookup name with ⟨-, hk⟩ | ⟨t, d', hm, hk, hw, hr⟩
  · simp [hd] at hk
  obtain rfl : d = d' := Option.some.inj (hd.symm.trans hk)
  have hrun : erase s.server =
      (.ok (), ⟨Keyed.insert name { t with rows := t.rows.filter p } s.server.tables⟩) := by
    simp [herase, Memory.changing, Memory.find?, hm]
  rw [Step.bind_of_ok (attach_apply name s), Step.bind_of_ok (call_of_ok hrun)]
  have hrows : t.rows.filter p = (d.without ids f).items.toList := by
    rw [hr, Shelf.toList_without hp]
  have hwidth : (d.without ids f).width = d.width := rfl
  exact ⟨rfl, (h.replace hd hwidth (h.represents.insert name
    (t := { t with rows := t.rows.filter p }) hw hrows
    ((h.represents.filed name d hd).without ids f))).forget _⟩

/-- The same steps where there is no such collection. -/
theorem erased_follows_of_none (h : Tracks c s k) (hd : k[name]? = none)
    {erase : Call Memory Unit}
    (herase : erase = Memory.changing name fun t => .ok { t with rows := t.rows.filter p }) :
    Follows c k
      ((do
        let _ ← call (family.attach name)
        call erase
        dropListings name) s)
      (.error (.notFound s!"table '{name}'")) := by
  rcases h.represents.lookup name with ⟨hm, -⟩ | ⟨t, d, -, hk, -, -⟩
  · have hrun : erase s.server = (.error (.missing s!"table '{name}'"), s.server) := by
      simp [herase, Memory.changing, Memory.find?, hm]
    rw [Step.bind_of_ok (attach_apply name s), Step.bind_of_error (call_of_error hrun)]
    exact ⟨rfl, h⟩
  · simp [hd] at hk

/-- Removing by key is leaving out rows. -/
theorem eraseIds_eq (name : String) (found : List String) :
    family.eraseIds name found = Memory.changing name fun t =>
      .ok { t with rows := t.rows.filter fun e => !found.contains e.1 } := by
  simp only [family, Memory.erase, Keyed.foldl_erase]

/-- Removing by ids what a removal is about. -/
theorem deleteIds_follows (h : Tracks c s k) (hd : k[name]? = some d) {found : List String}
    (hfound : ∀ e ∈ d.items.toList, found.contains e.1 = Shelf.isTarget ids f e.2) :
    Follows c k (family.deleteIds name found s) (.ok (k.insert name (d.without ids f))) := by
  rw [Family.deleteIds]
  split
  · rename_i hempty
    refine untouched_follows h hd fun e he => ?_
    rw [← hfound e he, List.isEmpty_iff.1 hempty]
    rfl
  · exact erased_follows h hd (fun e he => by rw [hfound e he]) (eraseIds_eq name found)

/-- Removing by ids where there is no such collection. -/
theorem deleteIds_follows_of_none (h : Tracks c s k) (hd : k[name]? = none)
    (hids : ids.isEmpty = false) :
    Follows c k (family.deleteIds name ids s) (.error (.notFound s!"table '{name}'")) := by
  rw [Family.deleteIds, hids]
  exact erased_follows_of_none h hd (eraseIds_eq name ids)

/-- Without a filter that has clauses, a removal is one by ids. -/
theorem deleteItems_of_ids_follows (h : Tracks c s k) (name : String) (ids : List String)
    {filter : Option Filter} (hf : selective filter = none) :
    Follows c k (family.deleteItems name ids filter s) (k.delete name ids filter) := by
  have hempty : filter.getD .empty = Filter.empty := by
    rcases filter with _ | ⟨_ | ⟨c, cs⟩⟩
    · rfl
    · rfl
    · cases hf
  rw [Family.deleteItems, ensureConnected_bind h.connected, hf, Catalog.delete, hempty]
  show Follows c k (family.deleteIds name ids s)
    (if ids.isEmpty && true then .ok k else k.shelf name >>= fun d =>
      .ok (k.insert name (d.without ids .empty)))
  cases hids : ids.isEmpty with
  | true =>
    rw [Family.deleteIds, if_pos hids]
    exact ⟨rfl, h⟩
  | false =>
    rw [Bool.false_and, if_neg Bool.false_ne_true, Catalog.shelf]
    cases hd : k[name]? with
    | none => exact deleteIds_follows_of_none h hd hids
    | some d =>
      refine deleteIds_follows h hd fun e he => ?_
      have hid := (h.represents.filed name d hd).id_of_mem he
      simp [Shelf.isTarget, hids, hid, Filter.empty, Filter.accepts]

/-- The ids that a removal by ids and filter finds. -/
theorem filteredIds_apply (h : Tracks c s k) (hv : f.validate = .ok ())
    (hids : ids.isEmpty = false) :
    family.filteredIds name ids f s =
      ((k.shelf name).map fun d =>
        ((ids.eraseDups.filterMap fun id => d.items[id]?).filter f.accepts).map (·.id), s) := by
  rw [Family.filteredIds, hids, if_neg Bool.false_ne_true, hv,
    Step.bind_of_ok (Action.ofResult_apply _ s), Step.bind_apply, getItems_eq h, Catalog.get, hids,
    if_neg Bool.false_ne_true]
  cases k.shelf name <;> rfl

theorem deleteItems_follows (h : Tracks c s k) (name : String) (ids : List String)
    (filter : Option Filter) :
    Follows c k (family.deleteItems name ids filter s) (k.delete name ids filter) := by
  cases hf : selective filter with
  | none => exact deleteItems_of_ids_follows h name ids hf
  | some f =>
    obtain ⟨rfl, hsome⟩ : filter = some f ∧ f.isEmpty = false := by
      rcases filter with _ | ⟨_ | ⟨c, cs⟩⟩ <;> cases hf
      exact ⟨rfl, rfl⟩
    rw [Family.deleteItems, ensureConnected_bind h.connected, hf, Catalog.delete, Option.getD_some]
    cases hc : filterCompiler.compile f with
    | error e =>
      have hc' : family.compiler.compile f = .error e := hc
      simp only [hc']
      rw [Step.bind_of_error (Action.ofResult_apply _ s)]
      exact ⟨rfl, h⟩
    | ok compiled =>
      have hc' : family.compiler.compile f = .ok compiled := hc
      have hc'' : filterCompiler.compile? (some f) = .ok compiled := hc
      obtain ⟨hcomplete, -⟩ := compile?_eq_ok hc''
      obtain ⟨native, hnative⟩ := FilterCompiler.native_of_isComplete hc hcomplete hsome
      simp only [hc']
      rw [Step.bind_of_ok (Action.ofResult_apply _ s), hnative, hcomplete, hsome, Bool.and_true,
        Bool.and_false]
      -- the conditions are the whole filter, so without ids the rows are removed by them;
      -- with ids the items are fetched first and those that pass are removed by id
      have hnone : k[name]? = none → k.shelf name = .error (.notFound s!"table '{name}'") :=
        fun hd => by rw [Catalog.shelf, hd]
      cases hids : ids.isEmpty with
      | true =>
        have herase : family.eraseWhere name native = Memory.changing name fun t =>
          .ok { t with rows := t.rows.filter fun e => !native.holds e.2 } := rfl
        cases hd : k[name]? with
        | none =>
          show Follows c k _ (k.shelf name >>= fun d => .ok (k.insert name (d.without ids f)))
          rw [hnone hd]
          exact erased_follows_of_none h hd herase
        | some d =>
          show Follows c k _ (k.shelf name >>= fun d => .ok (k.insert name (d.without ids f)))
          rw [Catalog.shelf, hd]
          refine erased_follows h hd (fun e _ => ?_) herase
          have hpass := passes_native hc e.2
          rw [hnative] at hpass
          rw [Shelf.isTarget, hids, ← hpass]
          rfl
      | false =>
        have hfound : family.filteredIds name ids f s = _ := filteredIds_apply h
          (Filter.validate_eq_ok_iff.2 (FilterCompiler.compile_eq_ok_iff.1 hc).1) hids
        show Follows c k
          ((family.filteredIds name ids f >>= fun found => family.deleteIds name found) s)
          (k.shelf name >>= fun d => .ok (k.insert name (d.without ids f)))
        cases hd : k[name]? with
        | none =>
          rw [hnone hd] at hfound ⊢
          rw [Step.bind_of_error hfound]
          exact ⟨rfl, h⟩
        | some d =>
          rw [Catalog.shelf, hd] at hfound ⊢
          rw [Step.bind_of_ok hfound]
          exact deleteIds_follows h hd fun e he =>
            (h.represents.filed name d hd).contains_accepted hids f he

end Postgres

end VectorBridge
