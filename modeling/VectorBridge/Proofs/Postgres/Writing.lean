import VectorBridge.Proofs.Batch
import VectorBridge.Proofs.Postgres.Tracking
/-!
# Writing to a tracked catalog

What creates, drops or fills collections answers what the catalog answers, and
leaves the session tracking what the catalog becomes. A batch is completed by a
steady provider as if it had never been asked before, and it is checked against
the width of the collection, remembered or asked for.
-/

namespace VectorBridge

namespace Postgres

open Session

variable {c : Context} {s : Session Memory} {k : Catalog} {m : Memory}

/-! ## Collections -/

theorem createCollection_follows (h : Tracks c s k) (name : String) (width : Nat)
    (metric : Metric) :
    Follows c k (family.createCollection name width metric s) (k.create name width metric) := by
  rw [Family.createCollection, ensureConnected_bind h.connected, Catalog.create]
  cases hc : checkCreate width metric with
  | error e => exact ⟨rfl, h⟩
  | ok u =>
    rw [Step.bind_of_ok (Action.ofResult_apply _ s), Step.bind_of_ok (Step.get_apply s)]
    rcases h.represents.lookup name with ⟨hm, hk⟩ | ⟨t, d, hm, hk, -, -⟩
    · have hcreate : family.create s.context name width metric s.server =
          (.ok (), ⟨Keyed.insert name ⟨width, metric, []⟩ s.server.tables⟩) := by
        simp [family, Memory.create, Keyed.hasKey_eq_isSome, hm]
      rw [Step.bind_of_ok (call_of_ok hcreate), recordWidth_apply]
      have hnew : (k.insert name ⟨width, ∅⟩)[name]? = some ⟨width, ∅⟩ := by simp
      simp only [hk]
      -- the widths that are remembered are of other collections
      refine ⟨rfl, h.record (h.represents.insert name rfl (by simp) (Shelf.filed_empty _)) ?_ hnew⟩
      intro other d hd
      refine ⟨d, ?_, rfl⟩
      have hne : name ≠ other := fun heq => by simp [← heq, hk] at hd
      simpa [Std.ExtTreeMap.getElem?_insert, hne] using hd
    · have hcreate : family.create s.context name width metric s.server =
          (.error (.api 0 s!"relation \"{name}\" already exists"), s.server) := by
        simp [family, Memory.create, Keyed.hasKey_eq_isSome, hm]
      rw [Step.bind_of_error (call_of_error hcreate)]
      simp only [hk]
      exact ⟨rfl, h⟩

theorem dropCollection_follows (h : Tracks c s k) (name : String) :
    Follows c k (family.dropCollection name s) (k.drop name) := by
  rw [Family.dropCollection, ensureConnected_bind h.connected, Catalog.drop, Catalog.shelf]
  rcases h.represents.lookup name with ⟨hm, hk⟩ | ⟨t, d, hm, hk, -, -⟩
  · have hdrop : family.drop name s.server = (.error (.missing s!"table '{name}'"), s.server) := by
      simp [family, Memory.drop, Memory.find?, hm]
    rw [Step.bind_of_error (call_of_error hdrop)]
    simp only [hk]
    exact ⟨rfl, h⟩
  · have hdrop : family.drop name s.server = (.ok (), ⟨Keyed.erase name s.server.tables⟩) := by
      simp [family, Memory.drop, Memory.find?, hm]
    rw [Step.bind_of_ok (call_of_ok hdrop), Step.bind_of_ok (forgetWidth_apply name _),
      dropListings_apply]
    simp only [hk]
    refine ⟨rfl, h.represents.erase name, h.connected, h.context, ?_⟩
    obtain ⟨ws, hws, hw⟩ := h.widths
    refine ⟨Keyed.erase name ws, by simp [hws, DimensionResolver.forget], ?_⟩
    intro other w hother
    rw [Keyed.get?_erase] at hother
    split at hother
    · cases hother
    · rename_i hne
      obtain ⟨d', hd', hw'⟩ := hw other w hother
      exact ⟨d', by simpa [Std.ExtTreeMap.getElem?_erase, hne] using hd', hw'⟩

/-! ## Writing items -/

/-- The provider's vectors of a batch, whatever it was asked before. -/
theorem embedMissing_apply (hc : c.IsSteady) (name : String) (batch : List Item)
    (log : List EmbeddingRequest) :
    ∃ log', Batch.embedMissing c name none batch log = (c.completed name batch, log') := by
  unfold Batch.embedMissing Context.completed
  cases he : c.embedder with
  | none => exact ⟨log, rfl⟩
  | some provider =>
    by_cases ht : ((batch.filter Batch.pending).filterMap (·.document)).isEmpty = true
    · exact ⟨log, by simp [ht]⟩
    · simp only [ht, Option.isNone_some, Bool.or_false, Bool.false_eq_true, reduceIte]
      generalize (batch.filter Batch.pending).filterMap (·.document) = texts
      refine ⟨⟨name, texts, c.modelHint name none none⟩ :: log, ?_⟩
      -- a steady provider answers as if it had not been asked before
      rw [Step.bind_apply, Context.embed]
      simp only [he, hc provider he log]
      cases provider.answer [] ⟨name, texts, c.modelHint name none none⟩ with
      | error e => rfl
      | ok vectors =>
        by_cases hl : vectors.length = texts.length
        · simp only [hl, reduceIte]
          rfl
        · simp only [hl, reduceIte]

/-- What the database declares for a collection. -/
theorem declaredWidth_apply (h : Represents m k) (name : String) :
    (family.declaredWidth name).toAction m = ((k.shelf name).map fun d => some d.width, m) :=
  h.reading name fun _ _ _ hw _ => congrArg some hw

/-- The width of a collection is the one it was created with, remembered or
asked for. -/
theorem resolve_of_some (h : Tracks c s k) {name : String} {d : Shelf} (hd : k[name]? = some d) :
    ∃ dimensions, family.resolve name s = (.ok (.known d.width), { s with dimensions }) ∧
      Tracks c { s with dimensions } k := by
  obtain ⟨ws, hws, hw⟩ := h.widths
  cases hget : Keyed.get? name ws with
  | some w =>
    obtain ⟨d', hd', rfl⟩ := hw name w hget
    obtain rfl : d = d' := Option.some.inj (hd.symm.trans hd')
    exact ⟨s.dimensions, resolveWidth_of_cached hws hget, h⟩
  | none =>
    have hdeclared : (family.declaredWidth name).toAction s.server =
        (.ok (some d.width), s.server) := by
      rw [declaredWidth_apply h.represents, Catalog.shelf, hd]
      rfl
    exact ⟨s.dimensions.record name d.width, resolveWidth_of_declared hws hget hdeclared,
      h.record h.represents (fun _ d' hd' => ⟨d', hd', rfl⟩) hd⟩

theorem resolve_of_none (h : Tracks c s k) {name : String} (hd : k[name]? = none) :
    family.resolve name s = (.error (.notFound s!"table '{name}'"), s) := by
  -- no width is remembered of a collection that is not there
  obtain ⟨ws, hws, hw⟩ := h.widths
  have hget : Keyed.get? name ws = none := by
    rw [Option.eq_none_iff_forall_not_mem]
    intro w hw'
    obtain ⟨d, hd', -⟩ := hw name w hw'
    simp [hd] at hd'
  have hdeclared : (family.declaredWidth name).toAction s.server =
      (.error (.notFound s!"table '{name}'"), s.server) := by
    rw [declaredWidth_apply h.represents, Catalog.shelf, hd]
    rfl
  exact resolveWidth_of_error hws hget hdeclared

/-- Writing a batch that fits the table. -/
theorem write_apply (h : Represents m k) {name : String} {d : Shelf} (hd : k[name]? = some d)
    {batch : List Item} (hfit : ∀ v ∈ batch.filterMap (·.embedding), v.length = d.width) :
    ∃ m', family.write name batch m = (.ok (), m') ∧
      Represents m' (k.insert name (d.put batch)) := by
  rcases h.lookup name with ⟨-, hk⟩ | ⟨t, d', hm, hk, hw, hr⟩
  · simp [hd] at hk
  obtain rfl : d = d' := Option.some.inj (hd.symm.trans hk)
  have hfits : t.misfit? batch = none := by
    rw [Table.misfit?, List.find?_eq_none]
    exact fun v hv => by simp [hfit v hv, hw]
  refine ⟨_, ?_, h.insert name
    (t := { t with rows := batch.foldl (fun m item => Keyed.insert item.id item m) t.rows })
    (d := d.put batch) hw ?_ ((h.filed name d hd).put batch)⟩
  · exact Call.toAction_of_ok
      (by simp [Memory.upsert, Memory.changing, Memory.find?, hm, hfits])
  · rw [hr, Shelf.toList_put]

/-- The last steps of a write: the width is remembered, the table written, and
the listings of the collection forgotten. -/
theorem written_follows (h : Tracks c s k) {name : String} {d d' : Shelf} (hd : k[name]? = some d)
    (hw : d'.width = d.width) {write : Action Memory Unit} {m' : Memory}
    (hwrite : write s.server = (.ok (), m')) (hm' : Represents m' (k.insert name d')) :
    Follows c k
      ((do
        recordWidth name d.width
        onServer write
        dropListings name) s)
      (.ok (k.insert name d')) := by
  have h₁ := h.record h.represents (fun _ e he => ⟨e, he, rfl⟩) hd
  rw [Step.bind_of_ok (recordWidth_apply _ _ s),
    Step.bind_of_ok (a := ()) (by rw [onServer_apply]; simp only [hwrite]; rfl)]
  exact ⟨rfl, (h₁.replace hd hw hm').forget _⟩

theorem addItems_follows (hc : c.IsSteady) (h : Tracks c s k) (name : String)
    (batch : List Item) :
    Follows c k (family.addItems name batch s) (k.add c name batch) := by
  rw [Family.addItems, ensureConnected_bind h.connected, Catalog.add]
  by_cases hempty : batch.isEmpty = true
  · rw [if_pos hempty, if_pos hempty]
    exact ⟨rfl, h⟩
  rw [if_neg hempty, if_neg hempty]
  -- the checks before the first question are those of the catalog; after it the
  -- session differs from `s` in the provider's log and the remembered widths alone
  cases hids : Batch.checkIds batch with
  | error e => exact ⟨rfl, h⟩
  | ok u =>
    have hitems : Filter.firstError (batch.map family.checkItem) = .ok () :=
      Filter.firstError_eq_ok_iff.2 (by simp [family])
    obtain ⟨log, hlog⟩ := embedMissing_apply hc name batch s.requests
    have hembed : embedding (fun c => Batch.embedMissing c name (family.metadataOf name) batch) s =
        (c.completed name batch, { s with requests := log }) := by
      rw [embedding_apply, h.context,
        show Batch.embedMissing c name (family.metadataOf name) batch s.requests = _ from hlog]
    have h₁ : Tracks c { s with requests := log } k :=
      ⟨h.represents, h.connected, h.context, h.widths⟩
    rw [Step.bind_of_ok (Action.ofResult_apply _ s), hitems,
      Step.bind_of_ok (Action.ofResult_apply _ s), Step.bind_of_ok (attach_apply name s)]
    cases hcomp : c.completed name batch with
    | error e =>
      rw [Step.bind_of_error (hembed.trans (by rw [hcomp]))]
      exact ⟨rfl, h₁⟩
    | ok full =>
      have hvectors : family.checkVectors full = .ok () := rfl
      rw [Step.bind_of_ok (hembed.trans (by rw [hcomp])), hvectors,
        Step.bind_of_ok (Action.ofResult_apply _ _)]
      cases hd : k[name]? with
      | none =>
        rw [Step.bind_of_error (resolve_of_none h₁ hd)]
        simp only [Catalog.shelf, hd]
        exact ⟨rfl, h₁⟩
      | some d =>
        obtain ⟨dimensions, hresolve, h₂⟩ := resolve_of_some h₁ hd
        rw [Step.bind_of_ok hresolve]
        simp only [Catalog.shelf, hd]
        show Follows c k _ (Batch.commonWidth (some d.width) full >>= fun _ =>
          pure (k.insert name (d.put full)))
        cases hwidth : Batch.commonWidth (some d.width) full with
        | error e =>
          have hdims : Batch.checkDimensions (.known d.width) full = .error e := hwidth
          rw [hdims, Step.bind_of_error (Action.ofResult_apply _ _)]
          exact ⟨rfl, h₂⟩
        | ok r =>
          -- a collection that is there has a width, so the batch cannot bring its own
          obtain ⟨rfl, hfit⟩ := Batch.commonWidth_some_eq_ok hwidth
          have hdims : Batch.checkDimensions (.known d.width) full = .ok (some d.width) := hwidth
          obtain ⟨m', hwrite, hm'⟩ := write_apply h₂.represents hd hfit
          rw [hdims, Step.bind_of_ok (Action.ofResult_apply _ _)]
          exact written_follows h₂ hd (show (d.put full).width = d.width from rfl) hwrite hm'

/-! ## Updating items -/

theorem updateItems_follows (hc : c.IsSteady) (h : Tracks c s k) (name : String)
    (updates : List ItemUpdate) :
    Follows c k (family.updateItems name updates s) (k.update c name updates) := by
  rw [Family.updateItems, ensureConnected_bind h.connected, Catalog.update]
  by_cases hempty : updates.isEmpty = true
  · rw [if_pos hempty, if_pos hempty]
    exact ⟨rfl, h⟩
  rw [if_neg hempty, if_neg hempty]
  -- an update first gets the items of its ids, and that is a call of its own
  have hids : (updates.map (·.id)).isEmpty = false := by simpa using hempty
  have hget := getItems_eq h name (updates.map (·.id))
  rw [Catalog.get, hids] at hget
  cases hd : k[name]? with
  | none =>
    simp only [Catalog.shelf, hd] at hget ⊢
    have hstored : family.getItems name (updates.map (·.id)) s =
        (.error (.notFound s!"table '{name}'"), s) := hget
    rw [Step.bind_of_error hstored]
    exact ⟨rfl, h⟩
  | some d =>
    have hfiled := h.represents.filed name d hd
    simp only [Catalog.shelf, hd] at hget ⊢
    have hstored : family.getItems name (updates.map (·.id)) s =
        (.ok ((updates.map (·.id)).eraseDups.filterMap fun id => d.items[id]?), s) := hget
    rw [Step.bind_of_ok hstored, Step.bind_of_ok (Step.get_apply s), h.context]
    cases hrep : Batch.repeated? [] (updates.map (·.id)) with
    | some id =>
      have hmerge : Batch.mergeUpdates c ((updates.map (·.id)).eraseDups.filterMap
          fun id => d.items[id]?) updates =
          .error (.invalidInput s!"id '{id}' is updated twice in one batch") := by
        rw [Batch.mergeUpdates, hrep]
      rw [hmerge, Step.bind_of_error (Action.ofResult_apply _ s)]
      exact ⟨rfl, h⟩
    | none =>
      -- what the updates make of the stored items is then added as a batch
      have hids : ∀ u ∈ updates, u.id ∈ (updates.map (·.id)).eraseDups := fun u hu =>
        List.mem_eraseDups.2 (List.mem_map_of_mem hu)
      have hmerge := Batch.applyAll_found c hfiled hids
      rw [Batch.mergeUpdates, hrep, hmerge]
      show Follows c k _ (updates.mapM (m := Result) _ >>= fun batch => k.add c name batch)
      generalize updates.mapM (m := Result) _ = merged
      cases merged with
      | error e => exact ⟨rfl, h⟩
      | ok batch =>
        rw [Step.bind_of_ok (Action.ofResult_apply _ s)]
        exact addItems_follows hc h name batch

end Postgres

end VectorBridge
