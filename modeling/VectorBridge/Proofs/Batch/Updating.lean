import Mathlib.Data.List.Nodup
import VectorBridge.Proofs.Batch
/-!
# Updates and the vectors they wait for

An update is merged into the stored item of its id, and the items that are left with
a document and without a vector are then completed in one request to the provider.
The document of such an item stands among the texts of the request behind those of
the waiting items before it, and its vector stands at the same place of the answer.
That filling in keeps the two together is `pairs_fill`, by induction on the items.
-/

namespace VectorBridge

namespace Batch

/-! ## Merging -/

/-- The first id that repeats stands twice, or is one of those seen before. -/
theorem repeated?_eq_some {seen ids : List String} {id : String}
    (h : repeated? seen ids = some id) : id ∈ ids ∧ (id ∈ seen ∨ 2 ≤ ids.count id) := by
  induction ids generalizing seen with
  | nil => cases h
  | cons first rest ih =>
    rw [repeated?] at h
    split at h
    · rename_i hseen
      cases h
      exact ⟨List.mem_cons_self, .inl (List.contains_iff_mem.1 hseen)⟩
    · obtain ⟨hmem, hold⟩ := ih h
      refine ⟨List.mem_cons_of_mem _ hmem, ?_⟩
      have hpos : 0 < rest.count id := List.count_pos_iff.2 hmem
      rw [List.count_cons]
      rcases hold with hold | hold
      · rcases List.mem_cons.1 hold with rfl | hold
        · right
          rw [beq_self_eq_true, if_pos rfl]
          omega
        · exact .inl hold
      · right
        omega

/-- No id repeats exactly when the ids are distinct, and from those seen before. -/
theorem repeated?_eq_none {seen ids : List String} :
    repeated? seen ids = none ↔ ids.Nodup ∧ ∀ id ∈ ids, id ∉ seen := by
  induction ids generalizing seen with
  | nil => simp [repeated?]
  | cons first rest ih =>
    rw [repeated?, List.nodup_cons, List.forall_mem_cons]
    split
    · rename_i hseen
      exact ⟨nofun, fun h => absurd (List.contains_iff_mem.1 hseen) h.2.1⟩
    · rename_i hseen
      have hfirst : first ∉ seen := fun hmem => hseen (List.contains_iff_mem.2 hmem)
      rw [ih]
      constructor
      · rintro ⟨hnodup, hnew⟩
        refine ⟨⟨fun hmem => hnew first hmem List.mem_cons_self, hnodup⟩, hfirst, ?_⟩
        exact fun id hid hold => hnew id hid (List.mem_cons_of_mem _ hold)
      · rintro ⟨⟨hnot, hnodup⟩, -, hnew⟩
        refine ⟨hnodup, fun id hid hold => ?_⟩
        rcases List.mem_cons.1 hold with rfl | hold
        · exact hnot hid
        · exact hnew id hid hold

/-- What an update makes of the stored item of its id. -/
structure Merges (c : Context) (u : ItemUpdate) (item merged : Item) : Prop where
  id : merged.id = u.id
  document : merged.document = u.document.or item.document
  metadata : merged.metadata = u.metadata.getD item.metadata
  /-- A supplied vector is taken over. -/
  supplied : ∀ v, u.embedding = some v → merged.embedding = some v
  /-- The vector of an older document is dropped where a new one can be computed. -/
  dropped : u.leavesStale item = true → c.embedder.isSome = true → merged.embedding = none
  /-- Any other stays. -/
  kept : u.embedding = none → u.leavesStale item = false ∨ c.embedder = none →
    merged.embedding = item.embedding

theorem merges_updated (c : Context) {u : ItemUpdate} {item : Item} (hid : item.id = u.id) :
    Merges c u item (updated c u item) := by
  rw [updated]
  split
  · rename_i hstale
    obtain ⟨hstale, hprovider⟩ := Bool.and_eq_true_iff.1 hstale
    refine ⟨hid, Option.or_eq_orElse.symm, rfl, fun v hv => ?_, fun _ _ => rfl, fun _ hnot => ?_⟩
    · rw [ItemUpdate.leavesStale, hv] at hstale
      cases hstale
    · rcases hnot with hnot | hnot
      · rw [hstale] at hnot
        cases hnot
      · rw [hnot] at hprovider
        cases hprovider
  · rename_i hstale
    refine ⟨hid, Option.or_eq_orElse.symm, rfl, fun v hv => ?_, fun hs hp => ?_, fun hu _ => ?_⟩
    · rw [ItemUpdate.apply, hv]
      rfl
    · exact absurd (Bool.and_eq_true_iff.2 ⟨hs, hp⟩) hstale
    · rw [ItemUpdate.apply, hu]
      rfl

/-- The stored item of an id is the last one of that id. -/
theorem getLast?_stored_isSome {stored : List Item} {id : String} :
    ((stored.filter fun item => item.id = id).getLast?).isSome = true ↔
      id ∈ stored.map (·.id) := by
  rw [List.getLast?_isSome, ← List.length_pos_iff_ne_nil, List.length_filter_pos_iff,
    List.mem_map]
  simp

theorem getLast?_stored {stored : List Item} (hstored : (stored.map (·.id)).Nodup) {item : Item}
    (hitem : item ∈ stored) :
    (stored.filter fun other => other.id = item.id).getLast? = some item := by
  have hsome := getLast?_stored_isSome.2 (List.mem_map_of_mem (f := Item.id) hitem)
  obtain ⟨last, hlast⟩ := Option.isSome_iff_exists.1 hsome
  obtain ⟨hmem, hid⟩ := List.mem_filter.1 (List.mem_of_getLast? hlast)
  rw [hlast, List.inj_on_of_nodup_map hstored hmem hitem (of_decide_eq_true hid)]

/-- An id that is not stored is missed, the first one first. -/
theorem applyAll_of_missing (c : Context) {stored : List Item} {updates : List ItemUpdate}
    (h : ∃ u ∈ updates, u.id ∉ stored.map (·.id)) :
    ∃ u ∈ updates, u.id ∉ stored.map (·.id) ∧
      applyAll c stored updates = .error (.notFound s!"item '{u.id}'") := by
  induction updates with
  | nil =>
    obtain ⟨u, hu, -⟩ := h
    cases hu
  | cons first rest ih =>
    rw [applyAll]
    cases hlast : (stored.filter fun item => item.id = first.id).getLast? with
    | none =>
      refine ⟨first, List.mem_cons_self, fun hmem => ?_, rfl⟩
      have hsome := getLast?_stored_isSome.2 hmem
      rw [hlast] at hsome
      cases hsome
    | some item =>
      have hfirst : first.id ∈ stored.map (·.id) :=
        getLast?_stored_isSome.1 (by rw [hlast]; rfl)
      obtain ⟨u, hu, hmissing⟩ := h
      rcases List.mem_cons.1 hu with rfl | hu
      · exact absurd hfirst hmissing
      · obtain ⟨u, hu, hmissing, hrest⟩ := ih ⟨u, hu, hmissing⟩
        exact ⟨u, List.mem_cons_of_mem _ hu, hmissing, by simp only [hrest]⟩

/-- Where every id is stored, every update is merged into the item of its id. -/
theorem applyAll_of_stored (c : Context) {stored : List Item}
    (hstored : (stored.map (·.id)).Nodup) {updates : List ItemUpdate}
    (h : ∀ u ∈ updates, u.id ∈ stored.map (·.id)) :
    ∃ merged, applyAll c stored updates = .ok merged ∧ merged.length = updates.length ∧
      ∀ {i : Nat} {u : ItemUpdate}, updates[i]? = some u → ∀ item ∈ stored, item.id = u.id →
        ∃ m, merged[i]? = some m ∧ Merges c u item m := by
  induction updates with
  | nil => exact ⟨[], rfl, rfl, nofun⟩
  | cons first rest ih =>
    rw [List.forall_mem_cons] at h
    obtain ⟨found, hfound, hid⟩ := List.mem_map.1 h.1
    obtain ⟨merged, hrest, hlength, hmerged⟩ := ih h.2
    refine ⟨updated c first found :: merged, ?_, by simp [hlength], ?_⟩
    · rw [applyAll, ← hid, getLast?_stored hstored hfound]
      simp only [hrest]
    · intro i u hu item hitem heq
      cases i with
      | zero =>
        obtain rfl := Option.some.inj hu
        obtain rfl := List.inj_on_of_nodup_map hstored hitem hfound (heq.trans hid.symm)
        exact ⟨_, rfl, merges_updated c heq⟩
      | succ i => exact hmerged hu item hitem heq

/-! ## Filling in -/

/-- The documents of the items that wait for a vector, in order. -/
def waitingTexts (items : List Item) : List String :=
  (items.filter pending).filterMap (·.document)

/-- Where the document of a waiting item stands among the texts: behind those of the
waiting items before it. -/
def textIndex (items : List Item) (i : Nat) : Nat := (items.take i).countP pending

/-- Each waiting item has the vector that stands where its document stands, and all
others are as they were. -/
structure Pairs (items : List Item) (vectors : List Embedding) (filled : List Item) : Prop where
  length : filled.length = items.length
  ready : ∀ {i : Nat} {item : Item}, items[i]? = some item → pending item = false →
    filled[i]? = some item
  waiting : ∀ {i : Nat} {item : Item}, items[i]? = some item → pending item = true →
    ∃ text v, item.document = some text ∧
      (waitingTexts items)[textIndex items i]? = some text ∧
      vectors[textIndex items i]? = some v ∧
      filled[i]? = some { item with embedding := some v }

/-- An item that waits has a document. -/
theorem exists_document_of_pending {item : Item} (h : pending item = true) :
    ∃ text, item.document = some text :=
  Option.isSome_iff_exists.1 (Bool.and_eq_true_iff.1 h).2

theorem waitingTexts_cons_of_pending {item : Item} {items : List Item} {text : String}
    (h : pending item = true) (htext : item.document = some text) :
    waitingTexts (item :: items) = text :: waitingTexts items := by
  rw [waitingTexts, List.filter_cons_of_pos h, List.filterMap_cons_some htext, waitingTexts]

theorem waitingTexts_cons_of_ready {item : Item} {items : List Item} (h : pending item = false) :
    waitingTexts (item :: items) = waitingTexts items := by
  rw [waitingTexts, List.filter_cons_of_neg (by rw [h]; exact Bool.false_ne_true), waitingTexts]

theorem textIndex_succ (item : Item) (items : List Item) (i : Nat) :
    textIndex (item :: items) (i + 1) =
      textIndex items i + if pending item = true then 1 else 0 := by
  rw [textIndex, List.take_succ_cons, List.countP_cons, textIndex]

/-- As many texts are asked for as items wait. -/
theorem waitingTexts_eq_nil_iff {items : List Item} :
    waitingTexts items = [] ↔ ∀ item ∈ items, pending item = false := by
  induction items with
  | nil => simp [waitingTexts]
  | cons item items ih =>
    rw [List.forall_mem_cons]
    cases hp : pending item with
    | true =>
      obtain ⟨text, htext⟩ := exists_document_of_pending hp
      simp [waitingTexts_cons_of_pending hp htext]
    | false => simp [waitingTexts_cons_of_ready hp, ih]

/-- **Filling in pairs every vector with the item of its text.** -/
theorem pairs_fill {items : List Item} {vectors : List Embedding}
    (h : vectors.length = (waitingTexts items).length) :
    Pairs items vectors (fill items vectors) := by
  induction items generalizing vectors with
  | nil => exact ⟨rfl, nofun, nofun⟩
  | cons first rest ih =>
    cases hp : pending first with
    | true =>
      obtain ⟨text, htext⟩ := exists_document_of_pending hp
      rw [waitingTexts_cons_of_pending hp htext] at h
      cases vectors with
      | nil => cases h
      | cons v vs =>
        have hrest := ih (Nat.succ.inj h)
        have hindex : ∀ i, textIndex (first :: rest) (i + 1) = textIndex rest i + 1 := fun i => by
          rw [textIndex_succ, if_pos hp]
        rw [fill, if_pos hp]
        refine ⟨by simp [hrest.length], fun {i item} hi hready => ?_, fun {i item} hi hwaits => ?_⟩
        · cases i with
          | zero =>
            obtain rfl := Option.some.inj hi
            rw [hp] at hready
            cases hready
          | succ i => exact hrest.ready hi hready
        · rw [waitingTexts_cons_of_pending hp htext]
          cases i with
          | zero =>
            obtain rfl := Option.some.inj hi
            exact ⟨text, v, htext, rfl, rfl, rfl⟩
          | succ i =>
            rw [hindex]
            exact hrest.waiting hi hwaits
    | false =>
      have hnot : ¬ pending first = true := by rw [hp]; exact Bool.false_ne_true
      rw [waitingTexts_cons_of_ready hp] at h
      have hrest := ih h
      have hindex : ∀ i, textIndex (first :: rest) (i + 1) = textIndex rest i := fun i => by
        rw [textIndex_succ, if_neg hnot, Nat.add_zero]
      -- with no vectors left there is nothing to fill in, and nothing waits
      have hfill : fill (first :: rest) vectors = first :: fill rest vectors := by
        cases vectors with
        | nil => cases rest <;> rfl
        | cons v vs => rw [fill, if_neg hnot]
      rw [hfill]
      refine ⟨by simp [hrest.length], fun {i item} hi hready => ?_, fun {i item} hi hwaits => ?_⟩
      · cases i with
        | zero => exact hi
        | succ i => exact hrest.ready hi hready
      · rw [waitingTexts_cons_of_ready hp]
        cases i with
        | zero =>
          obtain rfl := Option.some.inj hi
          exact absurd hwaits hnot
        | succ i =>
          rw [hindex]
          exact hrest.waiting hi hwaits

/-! ## Completing a batch -/

/-- What the provider is asked for a batch. -/
def requestOf (c : Context) (collection : String) (metadata : Option Metadata)
    (items : List Item) : EmbeddingRequest :=
  ⟨collection, waitingTexts items, c.modelHint collection metadata none⟩

/-- What a caller has of a batch after its completion was tried: the items completed, or
after a failure those that were handed over. -/
def leftWith (items : List Item) : Result (List Item) → List Item
  | .ok completed => completed
  | .error _ => items

/-- All that can come of completing a batch. -/
structure Completes (c : Context) (collection : String) (metadata : Option Metadata)
    (log : List EmbeddingRequest) (items : List Item) : Prop where
  /-- Without a provider nothing is computed, or cleared. -/
  unprovided : c.embedder = none → embedMissing c collection metadata items log = (.ok items, log)
  /-- Where no item waits nothing is asked. -/
  idle : (∀ item ∈ items, pending item = false) →
    embedMissing c collection metadata items log = (.ok items, log)
  /-- Else the provider is asked once, and its failure is that of the batch. -/
  failed : ∀ {provider e}, c.embedder = some provider → (∃ item ∈ items, pending item = true) →
    provider.answer log (requestOf c collection metadata items) = .error e →
    embedMissing c collection metadata items log =
      (.error e, requestOf c collection metadata items :: log)
  /-- An answer of another length is refused. -/
  miscounted : ∀ {provider vectors}, c.embedder = some provider →
    (∃ item ∈ items, pending item = true) →
    provider.answer log (requestOf c collection metadata items) = .ok vectors →
    vectors.length ≠ (waitingTexts items).length →
    embedMissing c collection metadata items log = (.error (.backend
      s!"embedding provider returned {vectors.length} vectors for {(waitingTexts items).length} texts"),
      requestOf c collection metadata items :: log)
  /-- Any other answer is filled in, vector by vector. -/
  paired : ∀ {provider vectors}, c.embedder = some provider →
    (∃ item ∈ items, pending item = true) →
    provider.answer log (requestOf c collection metadata items) = .ok vectors →
    vectors.length = (waitingTexts items).length →
    ∃ filled, embedMissing c collection metadata items log =
      (.ok filled, requestOf c collection metadata items :: log) ∧ Pairs items vectors filled
  /-- A failure gives no item a vector. -/
  unchanged : ∀ {e}, (embedMissing c collection metadata items log).1 = .error e →
    leftWith items (embedMissing c collection metadata items log).1 = items

/-- Where some item waits, the provider is asked. -/
theorem embedMissing_of_waiting {c : Context} {provider : Embedder} (collection : String)
    (metadata : Option Metadata) {items : List Item} (log : List EmbeddingRequest)
    (hprovider : c.embedder = some provider) (hwaits : ∃ item ∈ items, pending item = true) :
    embedMissing c collection metadata items log =
      (c.embed collection (waitingTexts items) metadata >>= fun vectors =>
        pure (fill items vectors)) log := by
  have hsome : ¬ (c.embedder.isNone || (waitingTexts items).isEmpty) = true := by
    rw [hprovider, Option.isNone_some, Bool.false_or, List.isEmpty_iff, waitingTexts_eq_nil_iff]
    obtain ⟨item, hitem, hp⟩ := hwaits
    intro hnone
    rw [hnone item hitem] at hp
    cases hp
  exact congrFun (if_neg hsome) log

theorem completes (c : Context) (collection : String) (metadata : Option Metadata)
    (log : List EmbeddingRequest) (items : List Item) :
    Completes c collection metadata log items where
  unprovided hnone := by
    rw [embedMissing, hnone, Option.isNone_none, Bool.true_or, if_pos rfl]
    rfl
  idle hready := by
    have htexts : waitingTexts items = [] := waitingTexts_eq_nil_iff.2 hready
    rw [waitingTexts] at htexts
    rw [embedMissing, htexts, List.isEmpty_nil, Bool.or_true, if_pos rfl]
    rfl
  failed hprovider hwaits hanswer := by
    rw [embedMissing_of_waiting collection metadata log hprovider hwaits]
    refine Step.bind_of_error ?_ _
    simp only [Context.embed, hprovider, requestOf] at hanswer ⊢
    rw [hanswer]
  miscounted hprovider hwaits hanswer hlength := by
    rw [embedMissing_of_waiting collection metadata log hprovider hwaits]
    refine Step.bind_of_error ?_ _
    simp only [Context.embed, hprovider, requestOf] at hanswer ⊢
    rw [hanswer]
    simp only [if_neg hlength]
  paired hprovider hwaits hanswer hlength := by
    rw [embedMissing_of_waiting collection metadata log hprovider hwaits]
    refine ⟨_, Step.bind_of_ok ?_ _, pairs_fill hlength⟩
    simp only [Context.embed, hprovider, requestOf] at hanswer ⊢
    rw [hanswer]
    simp only [if_pos hlength]
  unchanged hfailed := by
    rw [hfailed]
    rfl

/-! ## Providers that answer text by text -/

/-- What the provider is asked about a collection it answers text by text. -/
def AnswersBy (c : Context) (collection : String) (f : String → Embedding) : Prop :=
  ∀ provider, c.embedder = some provider → ∀ log request, request.collection = collection →
    provider.answer log request = .ok (request.texts.map f)

/-- An item with the vector of its document, when it waits for one. -/
def completed (f : String → Embedding) (item : Item) : Item :=
  if pending item then { item with embedding := some (f (item.document.getD "")) } else item

theorem fill_map (f : String → Embedding) (items : List Item) :
    fill items ((waitingTexts items).map f) = items.map (completed f) := by
  induction items with
  | nil => rfl
  | cons item rest ih =>
    rw [List.map_cons, completed]
    cases hp : pending item with
    | true =>
      obtain ⟨text, htext⟩ := exists_document_of_pending hp
      rw [waitingTexts_cons_of_pending hp htext, List.map_cons, fill, if_pos hp, if_pos rfl, ih,
        htext, Option.getD_some]
    | false =>
      rw [waitingTexts_cons_of_ready hp, if_neg Bool.false_ne_true, ← ih]
      cases (waitingTexts rest).map f with
      | nil => cases rest <;> rfl
      | cons v vs => rw [fill, if_neg (by rw [hp]; exact Bool.false_ne_true)]

/-- **A provider that answers text by text completes a batch item by item.** -/
theorem embedMissing_of_answersBy {c : Context} {collection : String} {f : String → Embedding}
    (hanswers : AnswersBy c collection f) (metadata : Option Metadata) {items : List Item}
    (hready : c.embedder = none → ∀ item ∈ items, pending item = false)
    (log : List EmbeddingRequest) :
    ∃ log', embedMissing c collection metadata items log =
      (.ok (items.map (completed f)), log') := by
  have C := completes c collection metadata log items
  have hsame : (∀ item ∈ items, pending item = false) → items.map (completed f) = items := by
    intro hnone
    refine (List.map_congr_left fun item hitem => ?_).trans (List.map_id items)
    rw [completed, hnone item hitem, if_neg Bool.false_ne_true, id]
  cases hprovider : c.embedder with
  | none => exact ⟨log, by rw [hsame (hready hprovider), C.unprovided hprovider]⟩
  | some provider =>
    by_cases hwaits : ∃ item ∈ items, pending item = true
    · have hembed : c.embed collection (waitingTexts items) metadata log =
          (.ok ((waitingTexts items).map f), requestOf c collection metadata items :: log) := by
        simp only [Context.embed, hprovider]
        rw [hanswers provider hprovider log _ rfl]
        simp only [List.length_map, if_pos, requestOf]
      rw [embedMissing_of_waiting collection metadata log hprovider hwaits]
      exact ⟨_, (Step.bind_of_ok hembed _).trans (by rw [fill_map]; rfl)⟩
    · have hnone : ∀ item ∈ items, pending item = false := fun item hitem =>
        Bool.eq_false_iff.2 fun hp => hwaits ⟨item, hitem, hp⟩
      exact ⟨log, by rw [hsame hnone, C.idle hnone]⟩

/-- Where every id is stored, the updates of stored items are made, one by one. -/
theorem exists_applyAll (c : Context) {stored : List Item} {updates : List ItemUpdate}
    (h : ∀ u ∈ updates, u.id ∈ stored.map (·.id)) :
    ∃ merged, applyAll c stored updates = .ok merged ∧ List.Forall₂ (fun u m =>
      ∃ item ∈ stored, item.id = u.id ∧ m = updated c u item) updates merged := by
  induction updates with
  | nil => exact ⟨[], rfl, .nil⟩
  | cons u rest ih =>
    rw [List.forall_mem_cons] at h
    obtain ⟨merged, hrest, hmerged⟩ := ih h.2
    obtain ⟨item, hlast⟩ := Option.isSome_iff_exists.1 (getLast?_stored_isSome.2 h.1)
    obtain ⟨hmem, hid⟩ := List.mem_filter.1 (List.mem_of_getLast? hlast)
    refine ⟨updated c u item :: merged, ?_, .cons ⟨item, hmem, of_decide_eq_true hid, rfl⟩ hmerged⟩
    rw [applyAll, hlast]
    simp only [hrest]

/-! ## Both together -/

/-- What the provider computed for the text at a place of a request. -/
def Computed (c : Context) (log : List EmbeddingRequest) (request : EmbeddingRequest) (j : Nat)
    (text : String) (v : Embedding) : Prop :=
  request.texts[j]? = some text ∧ ∃ provider vectors, c.embedder = some provider ∧
    provider.answer log request = .ok vectors ∧ vectors[j]? = some v

/-- What a stored item ends as, after its update and the completion of the batch; `own`
are the vectors computed for a text in its place. -/
structure EndsAs (c : Context) (own : String → Embedding → Prop) (u : ItemUpdate)
    (item final : Item) : Prop where
  id : final.id = u.id
  document : final.document = u.document.or item.document
  metadata : final.metadata = u.metadata.getD item.metadata
  /-- A supplied vector is kept. -/
  supplied : ∀ v, u.embedding = some v → final.embedding = some v
  /-- A stored vector is kept as long as its document is. -/
  kept : ∀ v, u.embedding = none → item.embedding = some v →
    (∀ text, u.document = some text → item.document = some text) → final.embedding = some v
  /-- With a provider a document that changed gets its own vector. -/
  renewed : ∀ text, c.embedder.isSome = true → u.embedding = none → u.document = some text →
    item.document ≠ some text → ∃ v, final.embedding = some v ∧ own text v
  /-- Without a provider nothing is cleared or computed. -/
  unprovided : c.embedder = none → final.embedding = u.embedding.or item.embedding

/-- A batch that could be completed has the vectors it was asked for: none where no item
waits or there is no provider, else those of the one answer. -/
theorem Completes.cases {c : Context} {collection : String} {metadata : Option Metadata}
    {log log' : List EmbeddingRequest} {items final : List Item}
    (h : Completes c collection metadata log items)
    (hrun : embedMissing c collection metadata items log = (.ok final, log')) :
    (final = items ∧ log' = log ∧
        (c.embedder = none ∨ ∀ item ∈ items, pending item = false)) ∨
      ∃ provider vectors, c.embedder = some provider ∧
        provider.answer log (requestOf c collection metadata items) = .ok vectors ∧
        log' = requestOf c collection metadata items :: log ∧ Pairs items vectors final := by
  cases hprovider : c.embedder with
  | none =>
    rw [h.unprovided hprovider] at hrun
    cases hrun
    exact .inl ⟨rfl, rfl, .inl rfl⟩
  | some provider =>
    by_cases hwaits : ∃ item ∈ items, pending item = true
    · right
      cases hanswer : provider.answer log (requestOf c collection metadata items) with
      | error e =>
        rw [h.failed hprovider hwaits hanswer] at hrun
        cases hrun
      | ok vectors =>
        by_cases hlength : vectors.length = (waitingTexts items).length
        · obtain ⟨filled, hfilled, hpairs⟩ := h.paired hprovider hwaits hanswer hlength
          rw [hfilled] at hrun
          cases hrun
          exact ⟨provider, vectors, rfl, hanswer, rfl, hpairs⟩
        · rw [h.miscounted hprovider hwaits hanswer hlength] at hrun
          cases hrun
    · have hready : ∀ item ∈ items, pending item = false := fun item hitem =>
        Bool.eq_false_iff.2 fun hp => hwaits ⟨item, hitem, hp⟩
      rw [h.idle hready] at hrun
      cases hrun
      exact .inl ⟨rfl, rfl, .inr hready⟩

/-- Without a vector of its own, an item that changed its document waits. -/
theorem Merges.pending {c : Context} {u : ItemUpdate} {item m : Item} (h : Merges c u item m)
    {text : String} (hprovider : c.embedder.isSome = true) (hnone : u.embedding = none)
    (htext : u.document = some text) (hchanged : item.document ≠ some text) :
    m.document = some text ∧ Batch.pending m = true := by
  have hdocument : m.document = some text := by rw [h.document, htext]; rfl
  have hstale : u.leavesStale item = true := by
    rw [ItemUpdate.leavesStale, hnone, htext]
    simpa using Ne.symm hchanged
  refine ⟨hdocument, ?_⟩
  rw [Batch.pending, h.dropped hstale hprovider, hdocument]
  rfl

/-- A document that is not replaced, or by itself, leaves no vector stale. -/
theorem leavesStale_of_same {u : ItemUpdate} {item : Item}
    (h : ∀ text, u.document = some text → item.document = some text) :
    u.leavesStale item = false := by
  rw [ItemUpdate.leavesStale]
  cases hdocument : u.document with
  | none => simp
  | some text => simp [h text hdocument]

/-- An item that is not filled in ends as the update has it. -/
theorem Merges.endsAs {c : Context} {own : String → Embedding → Prop} {u : ItemUpdate}
    {item m : Item} (h : Merges c u item m)
    (hready : c.embedder = none ∨ Batch.pending m = false) : EndsAs c own u item m where
  id := h.id
  document := h.document
  metadata := h.metadata
  supplied := h.supplied
  kept v hnone hv hsame := by rw [h.kept hnone (.inl (leavesStale_of_same hsame)), hv]
  renewed text hprovider hnone htext hchanged := by
    rcases hready with hready | hready
    · rw [hready] at hprovider
      cases hprovider
    · rw [(h.pending hprovider hnone htext hchanged).2] at hready
      cases hready
  unprovided hnone := by
    cases hu : u.embedding with
    | some v => rw [h.supplied v hu]; rfl
    | none => rw [h.kept hu (.inr hnone)]; rfl

/-- An item that waits ends with the vector computed in its place. -/
theorem Merges.endsAs_filled {c : Context} {own : String → Embedding → Prop} {u : ItemUpdate}
    {item m : Item} (h : Merges c u item m) (hprovider : c.embedder.isSome = true)
    (hwaits : Batch.pending m = true) {v : Embedding}
    (hown : ∀ text, m.document = some text → own text v) :
    EndsAs c own u item { m with embedding := some v } where
  id := h.id
  document := h.document
  metadata := h.metadata
  supplied w hw := by
    rw [Batch.pending, h.supplied w hw] at hwaits
    cases hwaits
  kept w hnone hw hsame := by
    rw [Batch.pending, h.kept hnone (.inl (leavesStale_of_same hsame)), hw] at hwaits
    cases hwaits
  renewed text hsome hnone htext hchanged :=
    ⟨v, rfl, hown text (h.pending hsome hnone htext hchanged).1⟩
  unprovided hnone := by
    rw [hnone] at hprovider
    cases hprovider

/-- **Updates merge item by item, and every vector that is computed goes to the item of its
text.** Of stored items of distinct ids: two updates of one id are refused, else an id
that is not stored is missed, else there is one item for each update, in their order,
with what the update supplies and the rest of the stored item; only a vector whose
document changed is dropped, where a provider can compute another. Completing these
items asks the provider once at most, for the documents of those that wait, in order,
and a failure or an answer of another length gives no item a vector. When it goes well
each item ends with the vector it should have. -/
theorem updates_end_with_own_vectors (c : Context) (collection : String)
    (metadata : Option Metadata) (log : List EmbeddingRequest) {stored : List Item}
    (hstored : (stored.map (·.id)).Nodup) (updates : List ItemUpdate) :
    (¬ (updates.map (·.id)).Nodup → ∃ id, 2 ≤ (updates.map (·.id)).count id ∧
      mergeUpdates c stored updates =
        .error (.invalidInput s!"id '{id}' is updated twice in one batch")) ∧
    ((updates.map (·.id)).Nodup → (∃ u ∈ updates, u.id ∉ stored.map (·.id)) →
      ∃ u ∈ updates, u.id ∉ stored.map (·.id) ∧
        mergeUpdates c stored updates = .error (.notFound s!"item '{u.id}'")) ∧
    ((updates.map (·.id)).Nodup → (∀ u ∈ updates, u.id ∈ stored.map (·.id)) →
      ∃ merged, mergeUpdates c stored updates = .ok merged ∧ merged.length = updates.length ∧
        (∀ {i : Nat} {u : ItemUpdate}, updates[i]? = some u → ∀ item ∈ stored, item.id = u.id →
          ∃ m, merged[i]? = some m ∧ Merges c u item m) ∧
        Completes c collection metadata log merged ∧
        ∀ {final log'}, embedMissing c collection metadata merged log = (.ok final, log') →
          final.length = updates.length ∧
          ∀ {i : Nat} {u : ItemUpdate}, updates[i]? = some u → ∀ item ∈ stored, item.id = u.id →
            ∃ f, final[i]? = some f ∧
              EndsAs c (Computed c log (requestOf c collection metadata merged)
                (textIndex merged i)) u item f) := by
  refine ⟨fun hrepeats => ?_, fun hnodup hmissing => ?_, fun hnodup hthere => ?_⟩
  · obtain ⟨id, hid⟩ : ∃ id, repeated? [] (updates.map (·.id)) = some id :=
      Option.ne_none_iff_exists'.1 fun hnone => hrepeats (repeated?_eq_none.1 hnone).1
    refine ⟨id, (repeated?_eq_some hid).2.resolve_left (by simp), ?_⟩
    rw [mergeUpdates, hid]
  all_goals have hdistinct : repeated? [] (updates.map (·.id)) = none :=
    repeated?_eq_none.2 ⟨hnodup, fun _ _ => List.not_mem_nil⟩
  · obtain ⟨u, hu, hnot, hrun⟩ := applyAll_of_missing c hmissing
    exact ⟨u, hu, hnot, by rw [mergeUpdates, hdistinct]; exact hrun⟩
  · obtain ⟨merged, hrun, hlength, hmerged⟩ := applyAll_of_stored c hstored hthere
    have hcompletes := completes c collection metadata log merged
    refine ⟨merged, by rw [mergeUpdates, hdistinct]; exact hrun, hlength, hmerged, hcompletes,
      fun {final log'} hfinal => ?_⟩
    rcases hcompletes.cases hfinal with ⟨rfl, -, hready⟩ |
      ⟨provider, vectors, hprovider, hanswer, -, hpairs⟩
    · refine ⟨hlength, fun hu item hitem hid => ?_⟩
      obtain ⟨m, hm, hmerges⟩ := hmerged hu item hitem hid
      exact ⟨m, hm, hmerges.endsAs (hready.imp_right fun h => h m (List.mem_of_getElem? hm))⟩
    · refine ⟨hpairs.length.trans hlength, fun {i u} hu item hitem hid => ?_⟩
      obtain ⟨m, hm, hmerges⟩ := hmerged hu item hitem hid
      cases hwaits : pending m with
      | false => exact ⟨m, hpairs.ready hm hwaits, hmerges.endsAs (.inr hwaits)⟩
      | true =>
        obtain ⟨text, v, htext, hplace, hv, hfilled⟩ := hpairs.waiting hm hwaits
        refine ⟨_, hfilled, hmerges.endsAs_filled (by rw [hprovider]; rfl) hwaits ?_⟩
        intro text' htext'
        obtain rfl := Option.some.inj (htext.symm.trans htext')
        exact ⟨hplace, provider, vectors, hprovider, hanswer, hv⟩

/-- A connection whose provider answers for every text with its length. -/
def measuring : Context :=
  ⟨none, [], some ⟨fun _ request =>
    .ok (request.texts.map fun text => [Embedder.float32OfNat text.length])⟩⟩

/-- Two stored items, and updates that give both new documents, the second one first. -/
def twoStored : List Item :=
  [⟨"a", some "old", [], some [Metric.one]⟩, ⟨"b", none, [("n", .num (.int 1))], none⟩]

def twoUpdates : List ItemUpdate :=
  [⟨"b", some "longer", none, none⟩, ⟨"a", some "new", none, none⟩]

/-- The provider is asked for both documents in the order of the updates, and each item
ends with the vector of its own. -/
theorem updates_end_with_own_vectors_of_two :
    (twoStored.map (·.id)).Nodup ∧ (twoUpdates.map (·.id)).Nodup ∧
      (∀ u ∈ twoUpdates, u.id ∈ twoStored.map (·.id)) ∧
      ∃ merged final log' a b, mergeUpdates measuring twoStored twoUpdates = .ok merged ∧
        embedMissing measuring "docs" none merged [] = (.ok final, log') ∧
        log'.map (·.texts) = [["longer", "new"]] ∧ final = [b, a] ∧
        (∃ v, b.embedding = some v ∧
          Computed measuring [] (requestOf measuring "docs" none merged) 0 "longer" v) ∧
        ∃ v, a.embedding = some v ∧
          Computed measuring [] (requestOf measuring "docs" none merged) 1 "new" v := by
  have hstored : (twoStored.map (·.id)).Nodup := by decide
  have hupdates : (twoUpdates.map (·.id)).Nodup := by decide
  have hthere : ∀ u ∈ twoUpdates, u.id ∈ twoStored.map (·.id) := by decide
  obtain ⟨merged, hmerged, hlength, -, -, hends⟩ :=
    (updates_end_with_own_vectors measuring "docs" none [] hstored twoUpdates).2.2 hupdates hthere
  have hrun : mergeUpdates measuring twoStored twoUpdates =
      .ok [⟨"b", some "longer", [("n", .num (.int 1))], none⟩, ⟨"a", some "new", [], none⟩] := rfl
  obtain rfl := Except.ok.inj (hmerged.symm.trans hrun)
  refine ⟨hstored, hupdates, hthere, _, _, _, _, _, hmerged, rfl, rfl, rfl, ?_, ?_⟩
  · obtain ⟨f, hf, hends⟩ :=
      (hends rfl).2 (i := 0) rfl _ (List.mem_cons_of_mem _ List.mem_cons_self) rfl
    obtain rfl := Option.some.inj hf
    exact hends.renewed "longer" rfl rfl rfl (by decide)
  · obtain ⟨f, hf, hends⟩ := (hends rfl).2 (i := 1) rfl _ List.mem_cons_self rfl
    obtain rfl := Option.some.inj hf
    exact hends.renewed "new" rfl rfl rfl (by decide)

end Batch

end VectorBridge
