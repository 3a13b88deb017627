import VectorBridge.Proofs.Postgres.Deleting
import VectorBridge.Proofs.Postgres.Writing
/-!
# The PostgreSQL adapter is a catalog

Every call of a session that tracks a catalog answers what the catalog answers,
and the session goes on tracking it; the run statement is an induction over the
calls. In every state that a run leads to, walking through a listing shows the
matching items of the collection.
-/

namespace VectorBridge

namespace Postgres

open Session

variable {c : Context} {s : Session Memory} {k : Catalog}

/-! ## Call by call -/

/-- A step without an answer of its own, as a call. -/
theorem done_tracks {x : Action (Session Memory) Unit} {r : Result Catalog}
    (h : Follows c k (x s) r) :
    ((do
      x
      pure AdapterAnswer.done) s).1 = (k.changing r).1 ∧
      Tracks c ((do
        x
        pure AdapterAnswer.done) s).2 (k.changing r).2 := by
  rw [Step.bind_apply]
  rcases hx : x s with ⟨e | u, s'⟩ <;> rw [hx] at h <;> cases r <;> obtain ⟨h₁, h₂⟩ := h <;>
    cases h₁ <;> exact ⟨rfl, h₂⟩

/-- A step that only reads, as a call. -/
theorem reading_tracks (h : Tracks c s k) {α : Type} {x : Action (Session Memory) α}
    {r : Result α} (hx : x s = (r, s)) (answer : α → AdapterAnswer) :
    ((do pure (answer (← x))) s).1 = (k.reading r answer).1 ∧
      Tracks c ((do pure (answer (← x))) s).2 (k.reading r answer).2 := by
  rw [Step.bind_apply, hx]
  cases r <;> exact ⟨rfl, h⟩

/-- **A call answers what the catalog answers**, and leaves the session
tracking the catalog. -/
theorem perform_tracks (hc : c.IsSteady) (h : Tracks c s k) (call : CatalogCall) :
    (family.adapter.perform call.toCall s).1 = (k.perform c call).1 ∧
      Tracks c (family.adapter.perform call.toCall s).2 (k.perform c call).2 := by
  cases call with
  | create name width metric => exact done_tracks (createCollection_follows h name width metric)
  | drop name => exact done_tracks (dropCollection_follows h name)
  | add name items => exact done_tracks (addItems_follows hc h name items)
  | update name updates => exact done_tracks (updateItems_follows hc h name updates)
  | delete name ids filter => exact done_tracks (deleteItems_follows h name ids filter)
  | get name ids => exact reading_tracks h (getItems_eq h name ids) .items
  | list name request filter => exact reading_tracks h (listItems_eq h name request filter) .page
  | count name => exact reading_tracks h (countItems_eq h name) .count

/-- The calls of a history one by one. -/
theorem run_tracks (hc : c.IsSteady) (h : Tracks c s k) (calls : List CatalogCall) :
    (family.adapter.run (calls.map CatalogCall.toCall) s).1 = (k.run c calls).1 ∧
      Tracks c (family.adapter.run (calls.map CatalogCall.toCall) s).2 (k.run c calls).2 := by
  induction calls generalizing s k with
  | nil => exact ⟨rfl, h⟩
  | cons call calls ih =>
    obtain ⟨hanswer, h'⟩ := perform_tracks hc h call
    obtain ⟨hanswers, h''⟩ := ih h'
    exact ⟨congrArg₂ List.cons hanswer hanswers, h''⟩

/-! ## Walking through a listing -/

/-- A page of a collection is there, and cut from its matching items. -/
theorem list_eq_ok {name : String} {d : Shelf} (hd : k[name]? = some d) {filter : Option Filter}
    {compiled : CompiledFilter SqlWhere} (hc : filterCompiler.compile? filter = .ok compiled)
    {token : Option PageToken} {offset size : Nat} (htoken : StartsAt token offset)
    (hsize : 0 < size) :
    ∃ page, k.list name ⟨token, size⟩ filter = .ok page ∧
      CutsAt (d.matching filter) offset size page := by
  have hv : (PageRequest.mk token size).validate = .ok () := by
    simp [PageRequest.validate, Nat.ne_of_gt hsize]
  refine ⟨{ items := ((d.matching filter).drop offset).take size
            next := if offset + size ≤ (d.matching filter).length then
                some (.offset (offset + size))
              else none }, ?_, rfl, ?_, ?_⟩
  · rw [Catalog.list, hv, hc, htoken size, Catalog.shelf, hd]
    rfl
  · intro hnext
    -- a page that promises no other was not full
    by_contra hlt
    rw [if_pos (by omega)] at hnext
    cases hnext
  · intro next hnext
    split at hnext
    · exact ⟨(Option.some.inj hnext).symm, ‹_›⟩
    · cases hnext

theorem validate_of_list_eq_ok {name : String} {request : PageRequest} {filter : Option Filter}
    {page : Page Item} (h : k.list name request filter = .ok page) : 0 < request.size := by
  rcases Nat.eq_zero_or_pos request.size with h0 | h0
  · simp [Catalog.list, PageRequest.validate, h0] at h
    cases h
  · exact h0

/-- Reading a tracked collection page by page, in pages of any sizes, gives its
matching items and leaves the session alone. -/
theorem drains_iff_matching (h : Tracks c s k) {name : String} {d : Shelf} (hd : k[name]? = some d)
    {filter : Option Filter} {compiled : CompiledFilter SqlWhere}
    (hc : filterCompiler.compile? filter = .ok compiled) {sizes : List Nat} {items : List Item}
    {s' : Session Memory}
    (hdrain : Drains (family.adapter.listItems name · filter) none sizes s items s') :
    items = d.matching filter ∧ s' = s := by
  -- every page is cut from the matching items, and no page changes the session
  have hstep : ∀ {token : Option PageToken} {offset size : Nat} {s₁ s₂ : Session Memory}
      {page : Page Item}, s₁ = s → StartsAt token offset →
      family.adapter.listItems name ⟨token, size⟩ filter s₁ = (.ok page, s₂) →
      s₂ = s ∧ CutsAt (d.matching filter) offset size page := by
    intro token offset size s₁ s₂ page hs htoken hlist
    subst hs
    have hlist' := (listItems_eq h name ⟨token, size⟩ filter).symm.trans hlist
    obtain ⟨hpage, rfl⟩ := Prod.mk.inj hlist'
    obtain ⟨page', hpage', hcut⟩ := list_eq_ok hd hc htoken (validate_of_list_eq_ok hpage)
    obtain rfl := Except.ok.inj (hpage'.symm.trans hpage)
    exact ⟨rfl, hcut⟩
  exact hdrain.eq_found (P := (· = s)) (hstep rfl startsAt_none) hstep

theorem exists_drains_matching (h : Tracks c s k) {name : String} {d : Shelf}
    (hd : k[name]? = some d) {filter : Option Filter} {compiled : CompiledFilter SqlWhere}
    (hc : filterCompiler.compile? filter = .ok compiled) {size : Nat → Nat}
    (hsize : ∀ i, 0 < size i) :
    ∃ n, Drains (family.adapter.listItems name · filter) none ((List.range n).map size) s
      (d.matching filter) s := by
  have hpage : ∀ {token : Option PageToken} {offset size : Nat}, StartsAt token offset → 0 < size →
      ∃ page, family.adapter.listItems name ⟨token, size⟩ filter s = (.ok page, s) ∧
        CutsAt (d.matching filter) offset size page := by
    intro token offset size htoken hpos
    obtain ⟨page, hpage, hcut⟩ := list_eq_ok hd hc htoken hpos
    exact ⟨page, (listItems_eq h name ⟨token, size⟩ filter).trans (by rw [hpage]), hcut⟩
  exact exists_drains (hpage startsAt_none) hpage hsize

/-! ## Run by run -/

/-- An adapter that has just connected to an empty database. -/
def connected (c : Context) : Session Memory :=
  (family.adapter.connect (.start .empty c)).2

theorem connected_tracks (c : Context) : Tracks c (connected c) ∅ where
  represents := ⟨fun _ => by simp [connected]; rfl, fun _ _ h => by simp at h⟩
  connected := rfl
  context := rfl
  widths := ⟨[], rfl, fun _ _ h => by cases h⟩

/-- **The adapter refines the catalog.** Whatever calls are made of an adapter
that has connected to an empty database, with no provider or a steady one, the
answers are those of the catalog, errors included. In the state they lead to,
reading a listing page by page, in pages of any sizes, comes to an end and has
seen every matching item of the collection once, in ascending order of the
ids. -/
theorem run_eq_catalog (c : Context) (hc : c.IsSteady) (calls : List CatalogCall) :
    let after := family.adapter.run (calls.map CatalogCall.toCall) (connected c)
    let catalog := Catalog.run c ∅ calls
    after.1 = catalog.1 ∧
      ∀ (name : String) (d : Shelf), catalog.2[name]? = some d →
        ∀ (filter : Option Filter) (compiled : CompiledFilter SqlWhere),
          filterCompiler.compile? filter = .ok compiled →
            ((∀ sizes items s',
                Drains (family.adapter.listItems name · filter) none sizes after.2 items s' →
                  items = d.matching filter ∧ s' = after.2) ∧
              (∀ size : Nat → Nat, (∀ i, 0 < size i) →
                ∃ n, Drains (family.adapter.listItems name · filter) none
                  ((List.range n).map size) after.2 (d.matching filter) after.2)) ∧
            ((d.matching filter).map (·.id)).Pairwise (· < ·) ∧
            ∀ item, item ∈ d.matching filter ↔
              d.items[item.id]? = some item ∧ filter.all (fun f => f.accepts item) = true := by
  intro after catalog
  obtain ⟨hanswers, h⟩ := run_tracks hc (connected_tracks c) calls
  refine ⟨hanswers, fun name d hd filter compiled hcompiled => ⟨⟨?_, ?_⟩, ?_, ?_⟩⟩
  · exact fun sizes items s' hdrain => drains_iff_matching h hd hcompiled hdrain
  · exact fun size hsize => exists_drains_matching h hd hcompiled hsize
  · exact (h.represents.filed name d hd).matching_ascending filter
  · exact (h.represents.filed name d hd).mem_matching filter

/-- A history with a steady provider: an item without a vector is added, its
document changed, and a removal by id and filter leaves it alone. -/
theorem run_eq_catalog_of_constant_provider :
    let c : Context := ⟨none, [], some (.constant [0])⟩
    let calls : List CatalogCall :=
      [.create "docs" 1 .cosine, .add "docs" [⟨"a", some "x", [], none⟩],
        .update "docs" [⟨"a", some "y", none, none⟩],
        .delete "docs" ["a"] (some ⟨[⟨documentField, .eq, .str "x"⟩]⟩), .count "docs"]
    c.IsSteady ∧
      (family.adapter.run (calls.map CatalogCall.toCall) (connected c)).1 =
        (Catalog.run c ∅ calls).1 ∧
      (family.adapter.run (calls.map CatalogCall.toCall) (connected c)).1 =
        [.ok .done, .ok .done, .ok .done, .ok .done, .ok (.count 1)] := by
  intro c calls
  have hsteady : c.IsSteady := fun provider hp _ _ => by cases hp; rfl
  exact ⟨hsteady, (run_eq_catalog c hsteady calls).1, rfl⟩

end Postgres

end VectorBridge
