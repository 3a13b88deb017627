import VectorBridge.Proofs.Columnar.Again
import VectorBridge.Proofs.Connection.Removal
import VectorBridge.Proofs.Family.Again
import VectorBridge.Proofs.Milvus.Again
import VectorBridge.Proofs.Qdrant.ById
import VectorBridge.Proofs.Weaviate.ById
/-!
# Connections that are given a batch twice

A server that has taken a batch holds it, each item in a place of its own, and when it is
given the batch again it puts each in the same place. What can stand in the way is the width
that the second addition compares the batch with. Where a Milvus schema declares none, the
width is read off the first row, and a component that is not finite is stored as `null` and
not read back: the vector then looks narrower than the one that was written.
-/

namespace VectorBridge

namespace Postgres

variable {m m' : Memory} {name : String}

/-- A change that is made again changes nothing when it does not change what it made. -/
theorem changing_again {f : Table → Except TransportError Table}
    (hf : ∀ t t', Keyed.get? name m.tables = some t → f t = .ok t' → f t' = .ok t')
    (h : Memory.changing name f m = (.ok (), m')) :
    Memory.changing name f m' = (.ok (), m') := by
  unfold Memory.changing Memory.find? at h
  cases ht : Keyed.get? name m.tables with
  | none =>
    simp only [ht] at h
    cases h
  | some t =>
    cases hft : f t with
    | error e =>
      simp only [ht, hft] at h
      cases h
    | ok t' =>
      simp only [ht, hft] at h
      cases h
      simp only [Memory.changing, Memory.find?, Keyed.get?_insert_self, hf t t' ht hft,
        Keyed.insert_insert]

theorem repeating : family.Repeating Memory.Ordered fun _ _ => True := by
  intro name h batch m m' hm hattach _ hids hwrite _
  obtain rfl : name = h := Except.ok.inj (Prod.mk.inj hattach).1
  have hupsert : Memory.upsert name batch m = (.ok (), m') := Call.toAction_eq_ok_iff.1 hwrite
  refine ⟨name, rfl, ⟨rfl, rfl⟩, rfl, Call.toAction_of_ok (changing_again ?_ hupsert), ?_⟩
  · intro t t' ht hput
    cases hfit : t.misfit? batch with
    | some v =>
      simp only [hfit] at hput
      cases hput
    | none =>
      simp only [hfit] at hput
      obtain rfl := Except.ok.inj hput
      have hfit' : ∀ rows, ({ t with rows } : Table).misfit? batch = none := fun _ => hfit
      simp only [hfit', ((hm name t ht).ascending.foldl_insert_again hids)]
  · -- a table declares its width
    intro w hdeclared
    cases ht : Keyed.get? name m.tables with
    | some t =>
      have hwidth := reading_apply ht fun t => some t.width
      rw [show Memory.reading name _ m = _ from hdeclared] at hwidth
      cases hwidth
    | none =>
      simp only [family, Memory.reading, Call.read_apply, Memory.find?, ht, Except.map] at hdeclared
      cases hdeclared

end Postgres

namespace Qdrant

variable {m m' : Memory} {name : String}

theorem changing_again {f : Stored → Except TransportError Stored}
    (hf : ∀ s s', Keyed.get? name m.collections = some s → f s = .ok s' → f s' = .ok s')
    (h : Memory.changing name f m = (.ok (), m')) :
    Memory.changing name f m' = (.ok (), m') := by
  unfold Memory.changing Memory.find? at h
  cases hs : Keyed.get? name m.collections with
  | none =>
    simp only [hs] at h
    cases h
  | some s =>
    cases hfs : f s with
    | error e =>
      simp only [hs, hfs] at h
      cases h
    | ok s' =>
      simp only [hs, hfs] at h
      cases h
      rw [changing_of_ok (Keyed.get?_insert_self _ _ _) (hf s s' hs hfs), Keyed.insert_insert]

theorem repeating : family.Repeating Memory.Faithful fun _ _ => True := by
  intro name h batch m m' hm hattach _ _ hwrite _
  obtain rfl : name = h := Except.ok.inj (Prod.mk.inj hattach).1
  obtain ⟨ms, m₁, hkeys, hput⟩ := Step.bind_eq_ok_iff.1 hwrite
  obtain ⟨hmap, rfl⟩ := Prod.mk.inj hkeys
  have hupsert : Memory.upsert name (batch.map Point.ofItem) m = (.ok (), m') :=
    Call.toAction_eq_ok_iff.1 hput
  have hdistinct : ((batch.map Point.ofItem).map (·.id)).Nodup := by
    rw [List.map_map]
    exact IdKind.nodup_of_mapBatch hmap
  refine ⟨name, rfl, ⟨rfl, rfl⟩, rfl, ?_, ?_⟩
  · show (Action.ofResult (IdKind.uuid.mapBatch batch) >>= fun _ => _) m' = _
    rw [Action.ofResult_bind_of_ok hmap]
    refine Call.toAction_of_ok (changing_again ?_ hupsert)
    intro s s' hs hput
    cases hfit : s.misfit? (batch.map Point.ofItem) with
    | some v =>
      simp only [hfit] at hput
      cases hput
    | none =>
      simp only [hfit] at hput
      obtain rfl := Except.ok.inj hput
      have hfit' : ∀ points, ({ s with points } : Stored).misfit? (batch.map Point.ofItem) = none :=
        fun _ => hfit
      simp only [hfit', (hm name s hs).ascending.foldl_insert_again hdistinct]
  · -- a collection declares its width
    intro w hdeclared
    cases hs : Keyed.get? name m.collections with
    | some s =>
      have hwidth := Call.toAction_eq_ok_iff.1 (reading_apply hs fun s => some s.width)
      rw [show Memory.reading name _ m = _ from hdeclared] at hwidth
      cases hwidth
    | none =>
      simp only [family, Memory.reading, Call.read_apply, Memory.find?, hs, Except.map] at hdeclared
      cases hdeclared

end Qdrant

namespace Weaviate

variable {m m' : Memory} {name : String} {s : Stored}

theorem mem_addNames {names new : List String} {n : String} :
    n ∈ addNames names new ↔ n ∈ names ∨ n ∈ new := by
  induction new generalizing names with
  | nil => simp [addNames]
  | cons first rest ih =>
    rw [show addNames names (first :: rest) =
      addNames (if names.contains first then names else names ++ [first]) rest from rfl, ih]
    split
    · rename_i hfirst
      have hmem : first ∈ names := List.contains_iff_mem.1 hfirst
      constructor
      · rintro (h | h)
        · exact .inl h
        · exact .inr (List.mem_cons_of_mem _ h)
      · rintro (h | h)
        · exact .inl h
        · rcases List.mem_cons.1 h with rfl | h
          · exact .inl hmem
          · exact .inr h
    · simp only [List.mem_append, List.mem_cons, List.not_mem_nil, or_false, or_assoc]

/-- Names that are there are not added. -/
theorem addNames_eq_self {names new : List String} (h : ∀ n ∈ new, n ∈ names) :
    addNames names new = names := by
  refine foldl_put_self fun n hn => ?_
  rw [if_pos (List.contains_iff_mem.2 (h n hn))]

/-- The properties of objects are noted when the objects are written, and stay so. -/
theorem mem_properties_foldl {objects : List Object} {s : Stored} {n : String}
    (h : n ∈ s.definition.properties ∨ ∃ o ∈ objects, n ∈ Keyed.keys o.properties) :
    n ∈ (objects.foldl Stored.write s).definition.properties := by
  induction objects generalizing s with
  | nil =>
    rcases h with h | ⟨_, ho, _⟩
    · exact h
    · cases ho
  | cons o rest ih =>
    refine ih (s := s.write o) ?_
    rw [show (s.write o).definition.properties = addNames s.definition.properties
      (Keyed.keys o.properties) from rfl, mem_addNames]
    rcases h with h | ⟨o', ho', hn⟩
    · exact .inl (.inl h)
    · rcases List.mem_cons.1 ho' with rfl | ho'
      · exact .inl (.inr hn)
      · exact .inr ⟨o', ho', hn⟩

/-- **Objects that are written again** are there. -/
theorem foldl_write_again (hs : s.Faithful name) {batch : List Item}
    (hplain : ∀ item ∈ batch, Metadata.Plain item.metadata)
    (hnew : (batch.map fun item => (uuidKey item.id).1).Nodup) :
    (batch.map Object.ofItem).foldl Stored.write
        ((batch.map Object.ofItem).foldl Stored.write s) =
      (batch.map Object.ofItem).foldl Stored.write s := by
  refine foldl_put_self fun o ho => ?_
  generalize hs' : (batch.map Object.ofItem).foldl Stored.write s = s'
  have hsound : s'.Faithful name := hs' ▸ hs.foldl_write hplain
  have hmem : o ∈ s'.objects := by
    rw [← hs', mem_objects_foldl hs hnew]
    obtain ⟨item, hitem, rfl⟩ := List.mem_map.1 ho
    exact .inl ⟨item, hitem, rfl⟩
  have hnames : addNames s'.definition.properties (Keyed.keys o.properties) =
      s'.definition.properties := by
    refine addNames_eq_self fun n hn => ?_
    rw [← hs']
    exact mem_properties_foldl (.inr ⟨o, ho, hn⟩)
  rw [Stored.write, hnames, place_eq,
    placeBy.eq_self (fun _ _ => decide_eq_true_iff) hsound.distinct hmem]

theorem repeating : (family (τ := Memory)).Repeating Memory.Faithful fun _ _ => True := by
  intro name c batch m m' hm hattach hplain _ hwrite _
  obtain ⟨s, hs, rfl⟩ := attach_eq_ok hattach
  obtain ⟨ms, m₁, hkeys, hput⟩ := Step.bind_eq_ok_iff.1 hwrite
  obtain ⟨hmap, rfl⟩ := Prod.mk.inj hkeys
  have hdone : Server.put (className name) (batch.map Object.ofItem) m = _ := changing_apply hs _
  rw [Call.toAction_of_ok hdone] at hput
  obtain ⟨-, rfl⟩ := Prod.mk.inj hput
  have hheld := Keyed.get?_insert_self (className name)
    ((batch.map Object.ofItem).foldl Stored.write s) m.classes
  have hagain := foldl_write_again (hm _ s hs) hplain (IdKind.nodup_of_mapBatch hmap)
  refine ⟨⟨name, _⟩, Step.bind_of_ok (reading_apply hheld _) _, ⟨rfl, rfl⟩, rfl, ?_,
    fun _ _ _ _ _ => .inl ⟨rfl, rfl⟩⟩
  show (Action.ofResult (IdKind.uuid.mapBatch batch) >>= fun _ => _) _ = _
  rw [Action.ofResult_bind_of_ok hmap]
  refine Call.toAction_of_ok ((changing_apply hheld fun s =>
    (batch.map Object.ofItem).foldl Stored.write s).trans ?_)
  rw [hagain, Keyed.insert_insert]

end Weaviate

namespace Chroma

variable {m m' : Memory} {name : String} {s : Stored}

/-- Writing items places them; the record of the collection stays, and so does a width. -/
theorem foldl_write_records (items : List Item) (s : Stored) :
    (items.foldl Stored.write s).records = items.foldl (fun l item => place item l) s.records ∧
      (items.foldl Stored.write s).info.metadata = s.info.metadata ∧
      (s.info.dimension.isSome = true ∨ (∃ item ∈ items, item.embedding.isSome = true) →
        (items.foldl Stored.write s).info.dimension.isSome = true) := by
  induction items generalizing s with
  | nil => exact ⟨rfl, rfl, fun h => h.elim id fun ⟨_, hmem, _⟩ => by cases hmem⟩
  | cons item items ih =>
    obtain ⟨hrecords, hmetadata, hwidth⟩ := ih (s.write item)
    refine ⟨hrecords, hmetadata, fun h => hwidth ?_⟩
    have hfirst : (s.write item).info.dimension =
      (s.info.dimension <|> item.embedding.map List.length) := rfl
    rw [hfirst]
    rcases h with h | ⟨other, hother, hvector⟩
    · obtain ⟨w, hw⟩ := Option.isSome_iff_exists.1 h
      exact .inl (by rw [hw]; rfl)
    · rcases List.mem_cons.1 hother with rfl | hother
      · cases s.info.dimension with
        | some w => exact .inl rfl
        | none => exact .inl (by simpa using hvector)
      · exact .inr ⟨other, hother, hvector⟩

/-- **Items that are written again** are there. -/
theorem foldl_write_again (hs : (s.records.map (·.id)).Nodup) {batch : List Item}
    (hids : (batch.map (·.id)).Nodup) :
    batch.foldl Stored.write (batch.foldl Stored.write s) = batch.foldl Stored.write s := by
  refine foldl_put_self fun item hitem => ?_
  obtain ⟨hrecords, -, hwidth⟩ := foldl_write_records batch s
  have hdistinct := (foldl_write batch s).2.2 hs
  generalize batch.foldl Stored.write s = s' at hrecords hwidth hdistinct
  have hput : ∀ {item : Item} {records : List Item}, True → (records.map (·.id)).Nodup →
      ((place item records).map (·.id)).Nodup ∧
        ∀ other, other ∈ place item records ↔
          other = item ∨ other ∈ records ∧ other.id ≠ item.id := by
    intro item records _ hrecords
    rw [place_eq]
    exact ⟨placeBy.nodup (fun _ _ => decide_eq_true_iff) hrecords,
      fun _ => placeBy.mem_iff (fun _ _ => decide_eq_true_iff) hrecords⟩
  have hmem : item ∈ s'.records := by
    rw [hrecords]
    exact (mem_foldl_put (J := fun records => (records.map (·.id)).Nodup) hput
      (fun _ _ => trivial) hs hids).2 (.inl hitem)
  have hknown : (s'.info.dimension <|> item.embedding.map List.length) = s'.info.dimension := by
    cases he : item.embedding with
    | none => cases s'.info.dimension <;> rfl
    | some e =>
      obtain ⟨w, hw⟩ := Option.isSome_iff_exists.1
        (hwidth (.inr ⟨item, hitem, by rw [he]; rfl⟩))
      rw [hw]
      rfl
  rw [Stored.write, hknown, place_eq,
    placeBy.eq_self (fun _ _ => decide_eq_true_iff) hdistinct hmem]

theorem repeating : (family (τ := Memory)).Repeating Memory.Numbered fun _ _ => True := by
  intro name h batch m m' hm hattach _ hids hwrite _
  obtain ⟨s, hs⟩ := held_of_attach hattach
  obtain rfl := opened_info ⟨hm, hattach, hs⟩
  have hupsert : Memory.changing s.info.id (fun s => batch.foldl Stored.write s) m = (.ok (), m') :=
    Call.toAction_eq_ok_iff.1 hwrite
  have hm' : m'.Numbered := by
    have hkept := keeps_changing s.info.id (foldl_write batch) m hm
    rwa [hupsert] at hkept
  have hheld : Keyed.get? name m'.collections = some (batch.foldl Stored.write s) :=
    (changed_of_changing hm hs hupsert).here
  have hname := hm'.named _ _ hheld
  refine ⟨(batch.foldl Stored.write s).info, ?_, ⟨hm.named _ _ hs, hname⟩,
    (foldl_write_records batch s).2.1, Call.toAction_of_ok ?_, fun _ _ _ _ _ => .inl ⟨rfl, rfl⟩⟩
  · show (Except.map (·.info) (m'.find? name), m') = _
    rw [Memory.find?, hheld]
    rfl
  · -- the items are there already, and so is the collection
    show Memory.changing _ _ m' = _
    simp only [Memory.changing, hm'.withId? hheld, foldl_write_again (hm.distinct _ _ hs) hids,
      hname, hm'.ascending.insert_of_get? hheld]

end Chroma

/-! ## Connections -/

/-- Where the width of a collection is read off its first item, the item is read in full. -/
def Holding.ReadsWhole : Holding → Prop
  | milvus s => s.ReadsWhole
  | chroma _ | qdrant _ | postgres _ | weaviate _ | table _ => True

instance : DecidablePred Holding.ReadsWhole
  | .milvus s => inferInstanceAs (Decidable s.ReadsWhole)
  | .chroma _ | .qdrant _ | .postgres _ | .weaviate _ | .table _ => .isTrue trivial

namespace Connection

/-- How the connection resolves widths. -/
def resolver (c : Connection) : DimensionResolver := c.reading fun _ s => s.dimensions

/-- The settings of the connection and its provider of vectors. -/
def context (c : Connection) : Context := c.reading fun _ s => s.context

/-- An addition of a batch succeeds and leaves every collection as it is. -/
def Repeats (name : String) (items : List Item) (c : Connection) : Prop :=
  ∃ c', addItems name items c = (.ok (), c') ∧
    ∀ collection, c'.holding? collection = c.holding? collection

/-- What sessions repeat, connections that wrap them repeat. -/
theorem repeats_of_session {τ : Type} {mk : Session τ → Connection} {name : String}
    {items : List Item} {f : Action (Session τ) Unit}
    (hadd : ∀ s, addItems name items (mk s) = (f s).map id mk)
    (hholding : ∀ {s s' : Session τ}, s'.server = s.server →
      ∀ collection, (mk s').holding? collection = (mk s).holding? collection)
    {s : Session τ} {c : Connection} (hrun : addItems name items (mk s) = (.ok (), c))
    (hagain : ∀ s', f s = (.ok (), s') → mk s' = c →
      ∃ s'', f s' = (.ok (), s'') ∧ s''.server = s'.server) :
    Repeats name items c := by
  rw [hadd] at hrun
  rcases hfs : f s with ⟨r, s'⟩
  rw [hfs] at hrun
  obtain ⟨rfl, rfl⟩ := Prod.mk.inj hrun
  obtain ⟨s'', hf, hserver⟩ := hagain s' hfs rfl
  exact ⟨mk s'', by rw [hadd, hf]; rfl, hholding hserver⟩

/-- **A batch that was added can be added again, and nothing changes.** Take any connection
to a server in memory that calls have led to, with widths resolved by default or fixed, and
a provider of vectors, if any, that answers by what it is asked. When it has taken a batch,
and a width that has to be read off the first item there is read in full, it takes the same
batch again, and every collection is left as it was: the same items in the same order, under
the same keys. -/
theorem addition_repeats {c c' : Connection} (hc : c.Reached) (hwidths : c.resolver.Definite)
    (hprovider : c.context.Consistent) {name : String} {items : List Item}
    (hplain : ∀ item ∈ items, Metadata.Plain item.metadata)
    (hadd : addItems name items c = (.ok (), c'))
    (hwhole : ∀ h, c'.holding? (c'.serverName name) = some h → h.ReadsWhole) :
    Repeats name items c' := by
  have hsound := hc.sound
  cases c with
  | chroma s =>
    exact repeats_of_session (fun _ => rfl) (fun h _ => by rw [holding?, holding?, h]) hadd
      fun s' hrun _ => Family.addItems_again Chroma.readsOnly Chroma.repeating hsound hwidths
        hprovider hplain trivial hrun
  | qdrant s =>
    exact repeats_of_session (fun _ => rfl) (fun h _ => by rw [holding?, holding?, h]) hadd
      fun s' hrun _ => Family.addItems_again Qdrant.readsOnly Qdrant.repeating hsound hwidths
        hprovider hplain trivial hrun
  | postgres s =>
    exact repeats_of_session (fun _ => rfl) (fun h _ => by rw [holding?, holding?, h]) hadd
      fun s' hrun _ => Family.addItems_again Postgres.readsOnly Postgres.repeating hsound hwidths
        hprovider hplain trivial hrun
  | milvus s =>
    refine repeats_of_session (fun _ => rfl) (fun h _ => by rw [holding?, holding?, h]) hadd
      fun s' hrun hc' => Family.addItems_again Milvus.readsOnly Milvus.repeating hsound hwidths
        hprovider hplain (fun held hheld => ?_) hrun
    subst hc'
    exact hwhole (.milvus held) (congrArg (Option.map Holding.milvus) hheld)
  | weaviate s =>
    exact repeats_of_session (fun _ => rfl) (fun h _ => by rw [holding?, holding?, h]) hadd
      fun s' hrun _ => Family.addItems_again Weaviate.readsOnly Weaviate.repeating hsound hwidths
        hprovider hplain trivial hrun
  | tables s =>
    exact repeats_of_session (fun _ => rfl) (fun h _ => by rw [holding?, holding?, h]) hadd
      fun s' hrun _ => Columnar.addItems_again hsound hwidths hprovider hrun
  | chromaRest | milvusRest | weaviateRest | directory | unsteady => exact hsound.elim

/-! ## A collection without a declared width -/

/-- A connected Milvus server with a collection that declares no width, and a provider that
gives every text one vector. -/
def undeclared (idKind : IdKind) : Connection :=
  let m := Milvus.Memory.empty.withCollection "docs" { Milvus.Schema.plain with idKind }
  (perform .connect (.milvus (.start m ⟨none, [], some (.constant [Metric.one])⟩))).2

theorem reached_undeclared {idKind : IdKind} (h : idKind ≠ .uuid) :
    (undeclared idKind).Reached := by
  have hplain := Milvus.apart_plain none .cosine
  have hS : Milvus.Schema.Apart { Milvus.Schema.plain with idKind } :=
    ⟨hplain.primary_ne_document, hplain.primary_ne_vector, hplain.primary_ne_given,
      hplain.vector_ne_given, h⟩
  exact .perform trivial (.fresh (.milvus (.withCollection .empty _ hS) _))

theorem consistent_undeclared (idKind : IdKind) : (undeclared idKind).context.Consistent := by
  intro provider hprovider _ _ _
  obtain rfl := Option.some.inj hprovider
  rfl

/-- An item with a vector and a number for an id, and one that waits for a vector. -/
def mixed : List Item := [sample "7", ⟨"doc_5", some "text", [], none⟩]

/-- Under integer keys one item stands under its number and the other under the number that
its id ends in, and both are found there again. -/
theorem addition_repeats_of_integer_keys :
    ∃ c', (undeclared .integer).Reached ∧ (undeclared .integer).resolver.Definite ∧
      (undeclared .integer).context.Consistent ∧ (∀ item ∈ mixed, Metadata.Plain item.metadata) ∧
      addItems "docs" mixed (undeclared .integer) = (.ok (), c') ∧
      c'.idsOf "docs" = some ["7", "doc_5"] ∧
      (∀ h, c'.holding? (c'.serverName "docs") = some h → h.ReadsWhole) ∧
      Repeats "docs" mixed c' := by
  have hreached : (undeclared .integer).Reached := reached_undeclared (by decide)
  have hplain : ∀ item ∈ mixed, Metadata.Plain item.metadata := by
    intro item hitem
    rcases List.mem_pair.1 hitem with rfl | rfl <;> rfl
  have hruns : (addItems "docs" mixed (undeclared .integer)).1 = .ok () := by decide +kernel
  have hids : (addItems "docs" mixed (undeclared .integer)).2.idsOf "docs" =
      some ["7", "doc_5"] := by decide +kernel
  have hread : ((addItems "docs" mixed (undeclared .integer)).2.holding? "docs").all
      (fun h => decide h.ReadsWhole) = true := by decide +kernel
  have hadd : addItems "docs" mixed (undeclared .integer) = (.ok (), _) := Prod.ext hruns rfl
  have hwhole : ∀ h, (addItems "docs" mixed (undeclared .integer)).2.holding? "docs" = some h →
      h.ReadsWhole := by
    intro h hh
    rw [hh] at hread
    exact of_decide_eq_true hread
  exact ⟨_, hreached, trivial, consistent_undeclared _, hplain, hadd, hids, hwhole,
    addition_repeats hreached trivial (consistent_undeclared _) hplain hadd hwhole⟩

/-- An item whose vector has a component that is not finite, and one that is. -/
def unbounded : List Item :=
  [⟨"a", none, [], some [Binary32.ofParts false 0x7F800000, Metric.one]⟩]

/-- The item is stored with its two components, and read with one: it is taken the first
time, and refused the second. -/
theorem addition_fails_again :
    ∃ c c', c.Reached ∧ c.resolver.Definite ∧ c.context.Consistent ∧
      (∀ item ∈ unbounded, Metadata.Plain item.metadata) ∧
      addItems "docs" unbounded c = (.ok (), c') ∧ c'.idsOf "docs" = some ["a"] ∧
      (addItems "docs" unbounded c').1 = .error (.dimensionMismatch 1 2) := by
  have hplain : ∀ item ∈ unbounded, Metadata.Plain item.metadata := by
    intro item hitem
    obtain rfl := List.mem_singleton.1 hitem
    rfl
  have hruns : (addItems "docs" unbounded (undeclared .nativeString)).1 = .ok () := by
    decide +kernel
  exact ⟨undeclared .nativeString, _, reached_undeclared (by decide), trivial,
    consistent_undeclared _, hplain, Prod.ext hruns rfl, by decide +kernel, by decide +kernel⟩

end Connection

end VectorBridge
