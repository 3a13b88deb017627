import VectorBridge.Proofs.Batch
import VectorBridge.Proofs.Columnar.Tracking
/-!
# Writing to a tracked archive

What creates, drops or fills tables answers what the archive answers, and leaves
the session tracking what the archive becomes. The rows that are written are
those of items that fit: a batch with a reserved id is refused before anything
is read, and one with a vector of another width before anything is written.
-/

namespace VectorBridge

namespace Columnar

open Session

variable {s : Session Memory} {a : Archive} {name : String} {r : Roster}

/-! ## Collections -/

theorem createCollection_alike (h : Tracks s a) (name : String) (width : Nat) (metric : Metric) :
    Step.Alike Tracks (createCollection name width metric s)
      (Archive.createCollection name width metric a) := by
  refine alike_connected h fun _ => alike_check h fun _ _ => ?_
  have hcontains : call (Store.contains (τ := Memory) name) s =
      (.ok (a.rosters[name]?.isSome), s) := by
    refine call_of_ok ?_
    show (Except.ok (Keyed.hasKey name s.server.tables), s.server) = _
    rw [Keyed.hasKey_eq_isSome, h.represents.tables, Option.isSome_map]
  rw [Step.bind_of_ok hcontains, Step.bind_of_ok (Step.get_apply a)]
  cases hr : a.rosters[name]? with
  | some r => exact alike_throw h _
  | none =>
    obtain ⟨ws, hws, hwidths⟩ := h.widths
    have hnew : (a.rosters.insert name (.new width metric))[name]? = some (.new width metric) := by
      simp
    have hwidths' : WidthsOf (a.rosters.insert name (.new width metric)) ws :=
      hwidths.insert fun old hold => by rw [hr] at hold; cases hold
    -- a table that was not there has neither a width nor a listing to be kept
    refine ⟨rfl, h.context, h.connected, h.asked,
      h.represents.insert (Roster.sound_new width metric) name,
      ⟨Keyed.insert name width ws, ?_, hwidths'.record hnew⟩, h.listings.insert_new hr⟩
    show s.dimensions.record name width = _
    rw [hws]
    rfl

theorem dropCollection_alike (h : Tracks s a) (name : String) :
    Step.Alike Tracks (dropCollection name s) (Archive.dropCollection name a) := by
  refine alike_connected h fun _ => ?_
  cases hr : a.rosters[name]? with
  | none =>
    have hdrop : Store.drop name s.server = (.error (.missing s!"table '{name}'"), s.server) := by
      simp [Store.drop, Memory.find?, h.represents.get?_of_none hr]
    rw [Step.bind_of_error (call_of_error hdrop), Step.bind_of_error (roster_of_none hr)]
    exact ⟨rfl, h⟩
  | some r =>
    have hdrop : Store.drop name s.server = (.ok (), ⟨Keyed.erase name s.server.tables⟩) := by
      simp [Store.drop, Memory.find?, h.represents.get?_of_some hr]
    rw [Step.bind_of_ok (call_of_ok hdrop), Step.bind_of_ok (forgetWidth_apply name _),
      dropListings_apply, Step.bind_of_ok (roster_of_some hr)]
    obtain ⟨ws, hws, hwidths⟩ := h.widths
    refine ⟨rfl, h.context, h.connected, h.asked, h.represents.erase name,
      ⟨Keyed.erase name ws, by simp [hws, DimensionResolver.forget], hwidths.erase name⟩,
      h.listings.invalidate fun other hne => ?_⟩
    simp [Std.ExtTreeMap.getElem?_erase, Ne.symm hne]

/-! ## Items -/

/-- **Writing the table of a roster that changed in its items** is keeping the
roster. -/
theorem write_alike (h : Tracks s a) {r' : Roster} (hr : a.rosters[name]? = some r)
    (hw : r.width = r'.width) (hr' : r'.Sound) :
    Step.Alike Tracks
      ((do
        call (Store.write name r'.table)
        dropListings name : Action (Session Memory) Unit) s)
      (Archive.keep name r' a) := by
  obtain ⟨ws, hws, hwidths⟩ := h.widths
  have hwrite : Store.write name r'.table s.server =
      (.ok (), ⟨Keyed.insert name r'.table s.server.tables⟩) := rfl
  rw [Step.bind_of_ok (call_of_ok hwrite), dropListings_apply]
  refine ⟨rfl, h.context, h.connected, h.asked, h.represents.insert hr' name,
    ⟨ws, hws, hwidths.insert fun old hold => ?_⟩, h.listings.invalidate fun other hne => ?_⟩
  · rw [← hw, Option.some.inj (hr.symm.trans hold)]
  · show (a.rosters.insert name r')[other]? = _
    rw [Std.ExtTreeMap.getElem?_insert, if_neg (by simpa using Ne.symm hne)]

/-- A batch with the reserved id does not pass. -/
theorem checkSentinel_of_mem {batch : List Item} (h : sentinelId ∈ batch.map (·.id)) :
    ∃ e, checkSentinel batch = .error e := by
  obtain ⟨item, hitem, hid⟩ := List.mem_map.1 h
  have hany : batch.any (fun item => item.id = sentinelId) = true :=
    List.any_eq_true.2 ⟨item, hitem, decide_eq_true hid⟩
  rw [checkSentinel, if_pos hany]
  exact ⟨_, rfl⟩

/-- A batch that passes its checks has items that fit, the vectors of the
provider among them. -/
theorem fits_of_checks {c : Context} {batch full : List Item} {log log' : List EmbeddingRequest}
    {w : Nat} {width : Option Nat} (hsentinel : checkSentinel batch = .ok ())
    (hfull : Batch.embedMissing c name none batch log = (.ok full, log'))
    (hwidth : Batch.commonWidth (some w) full = .ok width) :
    ∀ item ∈ full, Roster.Fits w item := by
  intro item hitem
  refine ⟨fun hid => ?_, fun v hv => ?_⟩
  · have hids : item.id ∈ batch.map (·.id) := by
      rw [← Batch.map_embedMissing (·.id) (fun _ _ => rfl) hfull]
      exact List.mem_map_of_mem hitem
    obtain ⟨e, hrefused⟩ := checkSentinel_of_mem (hid ▸ hids)
    cases hrefused.symm.trans hsentinel
  · exact (Batch.commonWidth_some_eq_ok hwidth).2 v (List.mem_filterMap.2 ⟨item, hitem, hv⟩)

theorem addItems_alike (h : Tracks s a) (name : String) (batch : List Item) :
    Step.Alike Tracks (addItems name batch s) (Archive.addItems name batch a) := by
  refine alike_connected h fun _ => ?_
  by_cases hempty : batch.isEmpty = true
  · rw [if_pos hempty, if_pos hempty]
    exact alike_pure h ()
  rw [if_neg hempty, if_neg hempty]
  refine alike_check h fun _ _ => alike_check h fun _ hsentinel => alike_reading h fun r hr => ?_
  refine alike_asking h fun full log s' a' hfull hsame h' => ?_
  have hr' : a'.rosters[name]? = some r := by rw [hsame]; exact hr
  refine alike_resolving h' hr' (g := Action.ofResult _ >>= _) fun s₂ h₂ => ?_
  refine alike_check h₂ fun width hwidth => ?_
  -- the table has a width, so the batch is checked against it and brings none
  obtain ⟨rfl, -⟩ := Batch.commonWidth_some_eq_ok hwidth
  have hfits := fits_of_checks hsentinel hfull hwidth
  have hsound := h.represents.sound name r hr
  have htable : ({ r.table with width := r.table.width <|> some r.width } : Table).upsert
      (full.map (Row.ofItem r.width)) = (r.putAll full).table := Roster.upsert_table hsound hfits
  show Step.Alike Tracks ((do
    call (Store.write name (({ r.table with width := r.table.width <|> some r.width } :
      Table).upsert (full.map (Row.ofItem r.width))))
    dropListings name : Action (Session Memory) Unit) s₂) _
  rw [htable]
  exact write_alike h₂ hr' (Roster.width_putAll r full).symm (hsound.putAll hfits)

/-- Updates make of what is read what they make of the roster. -/
theorem mergeUpdates_eq (c : Context) (r : Roster) (updates : List ItemUpdate) :
    Batch.mergeUpdates c ((updates.map (·.id)).filterMap r.find?) updates =
      r.revised c updates := by
  rw [Batch.mergeUpdates, Roster.revised]
  cases Batch.repeated? [] (updates.map (·.id)) with
  | some id => rfl
  | none =>
    have hfind : ∀ id item, r.find? id = some item → item.id = id := fun _ _ => Roster.find?_eq_some
    exact Batch.applyAll_found c hfind fun u hu => List.mem_map_of_mem hu

theorem updateItems_alike (h : Tracks s a) (name : String) (updates : List ItemUpdate) :
    Step.Alike Tracks (updateItems name updates s) (Archive.updateItems name updates a) := by
  refine alike_connected h fun hconn => ?_
  by_cases hempty : updates.isEmpty = true
  · rw [if_pos hempty, if_pos hempty]
    exact alike_pure h ()
  rw [if_neg hempty, if_neg hempty]
  -- an update first gets the items of its ids, and that is a call of its own
  simp only [getItems, bind_assoc, pure_bind]
  rw [ensureConnected_bind hconn]
  refine alike_reading h fun r hr => ?_
  rw [Step.bind_of_ok (Step.get_apply s), Step.bind_of_ok (Step.get_apply a),
    Roster.find?_items_table (h.represents.sound name r hr), h.context, mergeUpdates_eq]
  exact alike_check h fun batch _ => addItems_alike h name batch

/-- Without clauses a filter is no filter. -/
theorem selective_eq (filter : Option Filter) :
    selective filter =
      if (filter.getD .empty).isEmpty then none else some (filter.getD .empty) := by
  cases filter <;> rfl

/-- And there is nothing in it to be refused. -/
theorem checkFilter_selective (filter : Option Filter) :
    checkFilter (selective filter) = (filter.getD .empty).validate := by
  rw [selective_eq]
  split
  · rename_i hf
    rw [Filter.validate, List.isEmpty_iff.1 hf]
    rfl
  · rfl

/-- The ids that a removal takes are those of its targets. -/
theorem contains_targets (hr : r.Sound) {ids : List String} {filter : Option Filter}
    (hsome : (ids.isEmpty && (filter.getD .empty).isEmpty) = false) {item : Item}
    (hitem : item ∈ r.items) :
    (targets r.table ids ((selective filter).map fun _ => (selective filter).getD .empty)).contains
      item.id = Shelf.isTarget ids (filter.getD .empty) item := by
  rw [selective_eq]
  by_cases hf : (filter.getD .empty).isEmpty = true
  · -- every item passes, so the ids alone say what goes
    have hpass : (filter.getD .empty).accepts item = true := by
      rw [Filter.accepts, List.isEmpty_iff.1 hf]
      rfl
    rw [hf, Bool.and_true] at hsome
    rw [if_pos hf, Option.map_none, Shelf.isTarget, hsome, hpass, Bool.false_or, Bool.and_true]
    rfl
  · rw [if_neg hf]
    exact Roster.contains_targets hr ids _ hitem

/-- Removing the targets of a removal, if there are any. -/
theorem remove_alike (h : Tracks s a) (hr : a.rosters[name]? = some r) {ids taken : List String}
    {f : Filter}
    (htaken : ∀ item ∈ r.items, taken.contains item.id = Shelf.isTarget ids f item) :
    Step.Alike Tracks
      ((if taken.isEmpty then pure ()
        else do
          call (Store.write name (r.table.remove taken))
          dropListings name : Action (Session Memory) Unit) s)
      (Archive.keep name (r.without ids f) a) := by
  have hsound := h.represents.sound name r hr
  by_cases hempty : taken.isEmpty = true
  · -- the roster is kept as it was
    rw [if_pos hempty]
    have hnone : r.without ids f = r := by
      refine Roster.eq_of_items rfl rfl (List.filter_eq_self.2 fun item hitem => ?_)
      rw [← htaken item hitem, List.isEmpty_iff.1 hempty]
      rfl
    have hsame : a.rosters.insert name r = a.rosters := by
      refine Std.ExtTreeMap.ext_getElem? fun other => ?_
      rw [Std.ExtTreeMap.getElem?_insert]
      by_cases ho : name = other
      · simp [← ho, hr]
      · simp [ho]
    rw [hnone]
    show Step.Alike Tracks _ (Except.ok (), { a with rosters := a.rosters.insert name r })
    rw [hsame]
    exact ⟨rfl, h⟩
  · rw [if_neg hempty, Roster.remove_table hsound htaken]
    exact write_alike h hr rfl (hsound.without ids f)

theorem deleteItems_alike (h : Tracks s a) (name : String) (ids : List String)
    (filter : Option Filter) :
    Step.Alike Tracks (deleteItems name ids filter s) (Archive.deleteItems name ids filter a) := by
  refine alike_connected h fun _ => ?_
  have hmask : (ids.isEmpty && (selective filter).isNone) =
      (ids.isEmpty && (filter.getD .empty).isEmpty) := by
    rw [selective_eq]
    cases (filter.getD .empty).isEmpty <;> rfl
  simp only [hmask]
  split
  · exact alike_pure h ()
  · rename_i hsome
    rw [← checkFilter_selective]
    refine alike_compiling h fun _ => alike_reading h fun r hr => ?_
    exact remove_alike h hr fun item hitem =>
      contains_targets (h.represents.sound name r hr) (Bool.eq_false_iff.2 hsome) hitem

/-! ## What is shown afterwards -/

/-- The items that the table of a collection shows. -/
def contents (s : Session Memory) (name : String) : Option (List Item) :=
  (Keyed.get? name s.server.tables).map Table.items

theorem Tracks.contents_eq (h : Tracks s a) (name : String) :
    contents s name = a.rosters[name]?.map Roster.items := by
  rw [contents, h.represents.tables, Option.map_map]
  exact Option.map_congr fun r hr => Roster.items_table (h.represents.sound name r hr)

theorem Tracks.contents_of_some (h : Tracks s a) (hr : a.rosters[name]? = some r) :
    contents s name = some r.items := by
  rw [h.contents_eq, hr]
  rfl

/-- **What putting a batch into items comes to.** The ids that were there keep
their places and new ones come at the end; an id of the batch finds the item of
the batch, and every other id what it found before. -/
structure PutIn (batch before after : List Item) : Prop where
  order : after.map (·.id) =
    before.map (·.id) ++ (batch.map (·.id)).filter fun id => id ∉ before.map (·.id)
  found : ∀ id, after.find? (fun item => item.id = id) =
    (batch.find? fun item => item.id = id).or (before.find? fun item => item.id = id)

section Inversion

variable {a' : Archive} {α : Type} {x : α}

theorem archive_connected_bind_eq_ok {f : Unit → Action Archive α}
    (h : (Archive.ensureConnected >>= f) a = (.ok x, a')) : f () a = (.ok x, a') := by
  rw [Archive.ensureConnected, Step.bind_eq_ok_iff] at h
  obtain ⟨u, a₁, hconn, hf⟩ := h
  rw [Step.bind_of_ok (Step.get_apply a)] at hconn
  split at hconn
  · cases hconn
    exact hf
  · cases hconn

theorem archive_roster_bind_eq_ok {f : Roster → Action Archive α}
    (h : (Archive.roster name >>= f) a = (.ok x, a')) :
    ∃ r, a.rosters[name]? = some r ∧ f r a = (.ok x, a') := by
  cases hr : a.rosters[name]? with
  | none =>
    rw [Step.bind_of_error (roster_of_none hr)] at h
    cases h
  | some r =>
    rw [Step.bind_of_ok (roster_of_some hr)] at h
    exact ⟨r, rfl, h⟩

end Inversion

/-- A collection that is kept shows its items, and the others show what they did. -/
theorem contents_of_keep (h : Tracks s a) {s' : Session Memory} {a' : Archive} {r' : Roster}
    (h' : Tracks s' a') (hkeep : a'.rosters = a.rosters.insert name r') :
    contents s' name = some r'.items ∧
      ∀ other, other ≠ name → contents s' other = contents s other := by
  constructor
  · rw [h'.contents_eq, hkeep, Std.ExtTreeMap.getElem?_insert_self]
    rfl
  · intro other hne
    have hother : (a.rosters.insert name r')[other]? = a.rosters[other]? := by
      rw [Std.ExtTreeMap.getElem?_insert, if_neg (by simpa using Ne.symm hne)]
    rw [h'.contents_eq, hkeep, hother, h.contents_eq]

/-- **Adding a batch puts it into what a collection shows**, with the vectors of the
provider. -/
theorem addItems_contents (h : Tracks s a) {batch : List Item} (hsome : batch.isEmpty = false)
    {s' : Session Memory} (hadd : addItems name batch s = (.ok (), s')) :
    ∃ before after full log, contents s name = some before ∧ contents s' name = some after ∧
      Batch.embedMissing s.context name none batch s.requests = (.ok full, log) ∧
      PutIn full before after ∧ ∀ other, other ≠ name → contents s' other = contents s other := by
  obtain ⟨a', hadd', h'⟩ := (addItems_alike h name batch).of_ok hadd
  have hadd' := archive_connected_bind_eq_ok hadd'
  rw [if_neg (by rw [hsome]; exact Bool.false_ne_true), Action.ofResult_bind_eq_ok_iff] at hadd'
  obtain ⟨u, hids, hadd'⟩ := hadd'
  obtain ⟨-, -, hadd'⟩ := Action.ofResult_bind_eq_ok_iff.1 hadd'
  obtain ⟨r, hr, hadd'⟩ := archive_roster_bind_eq_ok hadd'
  obtain ⟨full, a₁, hfull, hkeep⟩ := Step.bind_eq_ok_iff.1 hadd'
  obtain ⟨-, -, hkeep⟩ := Action.ofResult_bind_eq_ok_iff.1 hkeep
  cases hkeep
  rcases hask : Batch.embedMissing a.context name none batch a.asked with ⟨answer, log⟩
  rw [Archive.asking, hask] at hfull
  cases hfull
  -- the vectors of the provider change no ids, so they are distinct as they were checked
  have hnodup : (full.map (·.id)).Nodup := by
    rw [Batch.map_embedMissing (·.id) (fun _ _ => rfl) hask]
    exact Batch.nodup_of_checkIds hids
  obtain ⟨hafter, hothers⟩ := contents_of_keep h h' rfl
  refine ⟨r.items, _, full, log, h.contents_of_some hr, hafter, ?_, ⟨Roster.ids_putAll hnodup,
    Roster.find?_putAll hnodup⟩, hothers⟩
  rw [h.context, h.asked]
  exact hask

/-- **A removal takes its targets** from what a collection shows. -/
theorem deleteItems_contents (h : Tracks s a) {ids : List String} {filter : Option Filter}
    (hsome : (ids.isEmpty && (filter.getD .empty).isEmpty) = false) {s' : Session Memory}
    (hdelete : deleteItems name ids filter s = (.ok (), s')) :
    ∃ before, contents s name = some before ∧
      contents s' name =
        some (before.filter fun item => !Shelf.isTarget ids (filter.getD .empty) item) ∧
      ∀ other, other ≠ name → contents s' other = contents s other := by
  obtain ⟨a', hdelete', h'⟩ := (deleteItems_alike h name ids filter).of_ok hdelete
  have hdelete' := archive_connected_bind_eq_ok hdelete'
  simp only [hsome, Bool.false_eq_true, if_false] at hdelete'
  obtain ⟨-, -, hdelete'⟩ := Action.ofResult_bind_eq_ok_iff.1 hdelete'
  obtain ⟨r, hr, hkeep⟩ := archive_roster_bind_eq_ok hdelete'
  cases hkeep
  obtain ⟨hafter, hothers⟩ := contents_of_keep h h' rfl
  exact ⟨r.items, h.contents_of_some hr, hafter, hothers⟩

/-- **The sentinel stays where it is**, whatever is to be removed. -/
theorem deleteItems_sentinel (h : Tracks s a) {t : Table}
    (ht : Keyed.get? name s.server.tables = some t) (ids : List String) (filter : Option Filter) :
    ∃ t', Keyed.get? name (deleteItems name ids filter s).2.server.tables = some t' ∧
      t'.rows.head? = t.rows.head? := by
  obtain ⟨r, hr, -, rfl⟩ := h.represents.exists_roster ht
  have hkeeps : Step.Keeps
      (fun a => ∃ r' : Roster, a.rosters[name]? = some r' ∧ r'.width = r.width)
      (Archive.deleteItems name ids filter) := by
    refine Step.Keeps.bind leaves_archive_connected.keeps fun _ => ?_
    simp only
    split
    · exact (Step.leaves_pure _).keeps
    · refine Step.Keeps.bind (fun _ hs => hs) fun _ a ⟨r', hr', hw⟩ => ?_
      rw [Step.bind_of_ok (roster_of_some hr')]
      exact ⟨_, Std.ExtTreeMap.getElem?_insert_self, hw⟩
  obtain ⟨r', hr', hw⟩ := hkeeps a ⟨r, hr, rfl⟩
  refine ⟨r'.table, (deleteItems_alike h name ids filter).2.represents.get?_of_some hr', ?_⟩
  -- the sentinel of a table is made of its width
  show some (Row.sentinel r'.width) = some (Row.sentinel r.width)
  rw [hw]

end Columnar

end VectorBridge
