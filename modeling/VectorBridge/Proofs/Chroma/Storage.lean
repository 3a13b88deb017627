import Std.Data.String.ToNat
import VectorBridge.Chroma.Memory
import VectorBridge.Proofs.Family.Storage
import VectorBridge.Proofs.Placing
/-!
# Records of a Chroma server

A collection is looked up by name and addressed by id, so what an answer is
about depends on ids being given once: they are numbered as collections are
created, and a collection keeps its own under its name. A record stands under
the id of its item, and a removal of ids selects the records of these ids.
-/

namespace VectorBridge

namespace Chroma

/-- The collections of a server. -/
def storage : Storage Memory Stored Item Json where
  serverName := id
  held? m name := Keyed.get? name m.collections
  rows := Stored.records
  withRows s records := { s with records }
  itemOf _ item := item
  holds w item := satisfies item.metadata w
  selects _ ids item := ids.contains item.id

/-- Collections stand under their names, were numbered as they were created, and
have one record for an id. -/
structure Memory.Numbered (m : Memory) : Prop where
  ascending : m.collections.Ascending
  named : ∀ name s, Keyed.get? name m.collections = some s → s.info.name = name
  counted : ∀ name s, Keyed.get? name m.collections = some s →
    ∃ k ≤ m.created, s.info.id = s!"col-{k}"
  apart : ∀ name s name' s', Keyed.get? name m.collections = some s →
    Keyed.get? name' m.collections = some s' → s.info.id = s'.info.id → name = name'
  distinct : ∀ name s, Keyed.get? name m.collections = some s → (s.records.map (·.id)).Nodup

variable {m m' : Memory} {name : String} {s : Stored}

namespace Memory.Numbered

/-- A collection is the one of its id. -/
theorem withId? (hm : m.Numbered) (hs : Keyed.get? name m.collections = some s) :
    m.withId? s.info.id = .ok s := by
  rw [Memory.withId?]
  cases hfind : (Keyed.values m.collections).find? fun s' => s'.info.id = s.info.id with
  | none =>
    have hmem : s ∈ Keyed.values m.collections := List.mem_map_of_mem (Keyed.mem_of_get? hs)
    have := List.find?_eq_none.1 hfind s hmem
    simp at this
  | some s' =>
    -- another collection of this id would have this name
    obtain ⟨⟨name', s'⟩, hmem, rfl⟩ := List.mem_map.1 (List.mem_of_find?_eq_some hfind)
    have hs' := hm.ascending.get?_of_mem hmem
    have hid : s'.info.id = s.info.id := by simpa using List.find?_some hfind
    obtain rfl := hm.apart _ _ _ _ hs' hs hid
    rw [Option.some.inj (hs'.symm.trans hs)]

/-- A collection of an id is under its name. -/
theorem get?_of_withId? (hm : m.Numbered) {id : String} (h : m.withId? id = .ok s) :
    Keyed.get? s.info.name m.collections = some s ∧ s.info.id = id := by
  rw [Memory.withId?] at h
  split at h
  · rename_i s' hfind
    cases h
    obtain ⟨⟨name', _⟩, hmem, rfl⟩ := List.mem_map.1 (List.mem_of_find?_eq_some hfind)
    have hs := hm.ascending.get?_of_mem hmem
    refine ⟨?_, by simpa using List.find?_some hfind⟩
    rw [hm.named _ _ hs]
    exact hs
  · cases h

/-- A collection may change its records and its width. -/
theorem insert (hm : m.Numbered) (hs : Keyed.get? name m.collections = some s) {s' : Stored}
    (hname : s'.info.name = s.info.name) (hid : s'.info.id = s.info.id)
    (hdistinct : (s'.records.map (·.id)).Nodup) :
    Memory.Numbered { m with collections := Keyed.insert name s' m.collections } := by
  -- what is under a name now has the id of what was there before
  have hget : ∀ other t, Keyed.get? other (Keyed.insert name s' m.collections) = some t →
      ∃ t₀, Keyed.get? other m.collections = some t₀ ∧ t.info.name = t₀.info.name ∧
        t.info.id = t₀.info.id ∧ (t.records.map (·.id)).Nodup := by
    intro other t ht
    rw [Keyed.get?_insert] at ht
    split at ht
    · rename_i heq
      cases ht
      exact ⟨s, heq ▸ hs, hname, hid, hdistinct⟩
    · exact ⟨t, ht, rfl, rfl, hm.distinct _ _ ht⟩
  refine ⟨hm.ascending.insert name s', ?_, ?_, ?_, ?_⟩
  · intro other t ht
    obtain ⟨t₀, ht₀, hn, -, -⟩ := hget other t ht
    rw [hn, hm.named _ _ ht₀]
  · intro other t ht
    obtain ⟨t₀, ht₀, -, hi, -⟩ := hget other t ht
    rw [hi]
    exact hm.counted _ _ ht₀
  · intro other t other' t' ht ht' heq
    obtain ⟨t₀, ht₀, -, hi, -⟩ := hget other t ht
    obtain ⟨t₀', ht₀', -, hi', -⟩ := hget other' t' ht'
    exact hm.apart _ _ _ _ ht₀ ht₀' (by rw [← hi, ← hi', heq])
  · intro other t ht
    obtain ⟨-, -, -, -, hd⟩ := hget other t ht
    exact hd

/-- A new collection takes the next number. -/
theorem create (hm : m.Numbered) (hnone : Keyed.get? name m.collections = none)
    (metadata : Metadata) :
    Memory.Numbered
      ⟨Keyed.insert name ⟨⟨s!"col-{m.created + 1}", name, some metadata, none⟩, []⟩ m.collections,
        m.created + 1⟩ := by
  have hcol : ∀ {i j : Nat}, s!"col-{i}" = s!"col-{j}" → i = j := by
    exact fun h => Nat.repr_injective ((String.append_right_inj "col-").1 h)
  -- what is there is the new collection, or an old one with a smaller number
  have hget : ∀ other t, Keyed.get? other (Keyed.insert name
      (⟨⟨s!"col-{m.created + 1}", name, some metadata, none⟩, []⟩ : Stored) m.collections) =
      some t →
      (other = name ∧ t = ⟨⟨s!"col-{m.created + 1}", name, some metadata, none⟩, []⟩) ∨
        Keyed.get? other m.collections = some t := by
    intro other t ht
    rw [Keyed.get?_insert] at ht
    split at ht
    · rename_i heq
      cases ht
      exact .inl ⟨heq.symm, rfl⟩
    · exact .inr ht
  have hnew : ∀ other t, Keyed.get? other m.collections = some t →
      t.info.id ≠ s!"col-{m.created + 1}" := by
    intro other t ht heq
    obtain ⟨k, hk, hid⟩ := hm.counted _ _ ht
    have := hcol (hid.symm.trans heq)
    omega
  refine ⟨hm.ascending.insert _ _, ?_, ?_, ?_, ?_⟩
  · intro other t ht
    rcases hget other t ht with ⟨rfl, rfl⟩ | hold
    · rfl
    · exact hm.named _ _ hold
  · intro other t ht
    rcases hget other t ht with ⟨rfl, rfl⟩ | hold
    · exact ⟨_, Nat.le_refl _, rfl⟩
    · obtain ⟨k, hk, hid⟩ := hm.counted _ _ hold
      exact ⟨k, Nat.le_succ_of_le hk, hid⟩
  · intro other t other' t' ht ht' heq
    rcases hget other t ht with ⟨rfl, rfl⟩ | hold <;>
      rcases hget other' t' ht' with ⟨rfl, rfl⟩ | hold'
    · rfl
    · exact absurd heq.symm (hnew _ _ hold')
    · exact absurd heq (hnew _ _ hold)
    · exact hm.apart _ _ _ _ hold hold' heq
  · intro other t ht
    rcases hget other t ht with ⟨rfl, rfl⟩ | hold
    · exact List.nodup_nil
    · exact hm.distinct _ _ hold

theorem erase (hm : m.Numbered) (name : String) :
    Memory.Numbered { m with collections := Keyed.erase name m.collections } := by
  have hget : ∀ other t, Keyed.get? other (Keyed.erase name m.collections) = some t →
      Keyed.get? other m.collections = some t := by
    intro other t ht
    rw [Keyed.get?_erase] at ht
    split at ht
    · cases ht
    · exact ht
  exact ⟨hm.ascending.erase name, fun other t ht => hm.named _ _ (hget _ _ ht),
    fun other t ht => hm.counted _ _ (hget _ _ ht),
    fun _ _ _ _ ht ht' => hm.apart _ _ _ _ (hget _ _ ht) (hget _ _ ht'),
    fun other t ht => hm.distinct _ _ (hget _ _ ht)⟩

end Memory.Numbered

/-! ## Writing -/

theorem place_eq (item : Item) (records : List Item) :
    place item records = placeBy (fun r => r.id = item.id) item records := by
  induction records with
  | nil => rfl
  | cons r rest ih => simp only [place, placeBy, ih, decide_eq_true_eq]

/-- Writing keeps a collection's name and id, and one record for an id. -/
theorem foldl_write (items : List Item) (s : Stored) :
    (items.foldl Stored.write s).info.name = s.info.name ∧
      (items.foldl Stored.write s).info.id = s.info.id ∧
      ((s.records.map (·.id)).Nodup → ((items.foldl Stored.write s).records.map (·.id)).Nodup) := by
  induction items generalizing s with
  | nil => exact ⟨rfl, rfl, id⟩
  | cons item items ih =>
    obtain ⟨hname, hid, hnodup⟩ := ih (s.write item)
    refine ⟨hname, hid, fun h => hnodup ?_⟩
    rw [Stored.write, place_eq]
    exact placeBy.nodup (fun r _ => decide_eq_true_iff) h

/-- A change of a collection that keeps what it is known by. -/
theorem keeps_changing {f : Stored → Stored} (id : String)
    (hf : ∀ s, (f s).info.name = s.info.name ∧ (f s).info.id = s.info.id ∧
      ((s.records.map (·.id)).Nodup → ((f s).records.map (·.id)).Nodup)) :
    Step.Keeps Memory.Numbered (Memory.changing id f) := by
  intro m hm
  unfold Memory.changing
  cases h : m.withId? id with
  | error e => exact hm
  | ok s =>
    obtain ⟨hs, -⟩ := hm.get?_of_withId? h
    obtain ⟨hname, hid, hnodup⟩ := hf s
    exact hm.insert hs hname hid (hnodup (hm.distinct _ _ hs))

/-- Removing records keeps the rest distinct. -/
theorem keeps_removing (id : String) (p : Item → Bool) :
    Step.Keeps Memory.Numbered
      (Memory.changing id fun s => { s with records := s.records.filter p }) :=
  keeps_changing id fun _ => ⟨rfl, rfl, fun h => h.sublist (List.filter_sublist.map _)⟩

/-- What a change of an opened collection does. -/
theorem changed_of_changing {f : Stored → Stored} (hm : m.Numbered)
    (hs : Keyed.get? name m.collections = some s)
    (h : Memory.changing s.info.id f m = (.ok (), m')) : storage.Changed m m' name (f s) := by
  rw [Memory.changing, hm.withId? hs] at h
  cases h
  rw [hm.named _ _ hs]
  exact ⟨Keyed.get?_insert_self _ _ _, fun other hne => Keyed.get?_insert_of_ne hne.symm _ _⟩

/-! ## The questions of the family -/

theorem leaves_reading {α : Type} (id : String) (f : Stored → α) :
    Step.Leaves (Memory.reading id f) := fun _ => rfl

theorem leaves_find (name : String) : Step.Leaves (Server.find (τ := Memory) name) := fun _ => rfl

theorem readsOnly : (family (τ := Memory)).ReadsOnly where
  ping := Step.leaves_pure ()
  names := Step.Leaves.bind (fun _ => rfl) fun _ => Step.leaves_pure _
  count name := (leaves_find name).bind fun _ _ => rfl
  attach := leaves_find
  inspect name := (leaves_find name).bind fun _ => Step.leaves_pure _
  declaredWidth _ := Step.leaves_pure _
  probedWidth _ := Step.Leaves.bind (fun _ => rfl) fun _ => Step.leaves_pure _
  fetch _ _ _ := rfl
  sample _ _ _ := rfl
  fetchAll _ _ m := Session.toAction_snd _ m
  readPage _ _ _ := Step.Leaves.bind (fun _ => rfl) fun _ =>
    Step.Leaves.bind (fun m => Session.toAction_snd _ m) fun _ _ => rfl
  size _ _ := rfl
  nearest _ _ _ _ _ _ := rfl

theorem guards : (family (τ := Memory)).Guards Memory.Numbered fun _ => True where
  create c name width metric := by
    refine Step.Keeps.bind (fun m hm => ?_) fun _ => (Step.leaves_pure _).keeps
    show Memory.Numbered (Memory.create name _ m).2
    unfold Memory.create
    cases hget : Keyed.get? name m.collections with
    | some s => exact hm
    | none => exact hm.create hget _
  drop name m hm := by
    show Memory.Numbered (Memory.drop name m).2
    unfold Memory.drop
    cases m.find? name with
    | error e => exact hm
    | ok s => exact hm.erase name
  eraseIds h ids := keeps_removing h.id fun item => !ids.contains item.id
  eraseWhere h w := keeps_removing h.id fun item => !satisfies item.metadata w
  write {name m h items} hm _ _ _ := by
    show Memory.Numbered (Call.toAction _ m).2
    rw [Session.toAction_snd]
    exact keeps_changing h.id (foldl_write items) m hm
  plain_fetch _ _ _ _ _ := trivial

/-! ## Reading -/

theorem opened_info {h : Info} (ho : storage.Opened family Memory.Numbered m name h s) :
    h = s.info := by
  have hs : Keyed.get? name m.collections = some s := ho.held
  have hattach := ho.attach
  simp only [family, Server.find, Call.read_apply, Memory.find?, hs, Except.map] at hattach
  cases hattach
  rfl

theorem held_of_attach {h : Info} (hattach : (family (τ := Memory)).attach name m = (.ok h, m)) :
    ∃ s, storage.held? m (storage.serverName name) = some s := by
  show ∃ s, Keyed.get? name m.collections = some s
  cases hs : Keyed.get? name m.collections with
  | some s => exact ⟨s, rfl⟩
  | none =>
    simp only [family, Server.find, Call.read_apply, Memory.find?, hs, Except.map] at hattach
    cases hattach

/-- What is read of an opened collection. -/
theorem reading_of_opened {h : Info} {α : Type}
    (ho : storage.Opened family Memory.Numbered m name h s) (f : Stored → α) :
    (Memory.reading h.id f).toAction m = (.ok (f s), m) := by
  have hid := ho.inv.withId? ho.held
  refine Call.toAction_of_ok ?_
  rw [Memory.reading, Call.read_apply, opened_info ho, hid]
  rfl

/-- A selection by a filter is of the records that satisfy it. -/
theorem select_eq (s : Stored) (filter : Option Json) :
    s.select { Selection.all with filter } = storage.passing s filter :=
  (List.map_id _).symm

theorem select_page_eq (s : Stored) (filter : Option Json) (offset size : Nat) :
    s.select { Selection.all with filter, limit := some size, offset := some offset } =
      ((storage.passing s filter).drop offset).take size := by
  rw [← select_eq]
  rfl

/-- **The questions of the family do to the records what they are to do.** -/
theorem lawful : storage.Lawful (family (τ := Memory)) Memory.Numbered where
  rows_withRows _ _ := rfl
  withRows_rows _ := rfl
  itemOf_withRows _ _ := rfl
  reads := readsOnly
  held_of_readPage hattach := fun _ => held_of_attach hattach
  held_of_fetchAll hattach := fun _ => held_of_attach hattach
  attach_of_held := by
    intro name m s hs
    have hs' : Keyed.get? name m.collections = some s := hs
    refine ⟨s.info, ?_⟩
    simp only [family, Server.find, Call.read_apply, Memory.find?, hs', Except.map]
  nodup := by
    intro m name s hm hs
    rw [Storage.items, List.map_map]
    exact hm.distinct _ _ hs
  drains_readPage := by
    intro m name h s ho fragment sizes items m' hdrain
    refine Storage.drains_pageAt (fun size offset =>
      (Memory.reading h.id fun s => s.select
        { Selection.all with
          filter := fragment
          limit := some size
          offset := some offset }).toAction) id (fun _ _ => rfl) ?_ hdrain
    intro size offset answer m₁ hread
    rw [reading_of_opened ho] at hread
    cases hread
    exact ⟨select_page_eq s fragment offset size, rfl⟩
  readPage_of_nil := by
    intro m name h s ho fragment hnone
    refine Storage.pageAt_nil (fun offset =>
      (Memory.reading h.id fun s => s.select
        { Selection.all with
          filter := fragment
          limit := some 1
          offset := some offset }).toAction) id (reading_of_opened ho _) ?_
    rw [select_page_eq, hnone]
    rfl
  fetchAll_eq := by
    intro m name h s ho fragment items m' hread
    obtain ⟨hitems, -⟩ := Prod.mk.inj ((reading_of_opened ho _).symm.trans hread)
    rw [← Except.ok.inj hitems]
    exact select_eq s fragment
  fetchAll_of_le := by
    intro m name h s m₂ h₂ s₂ _ ho₂ fragment items _ _
    exact ⟨_, reading_of_opened ho₂ _⟩
  eraseWhere_ok := by
    intro m name h s ho fragment m' herase
    obtain rfl := opened_info ho
    exact changed_of_changing ho.inv ho.held herase
  eraseIds_ok := by
    intro m name h s ho ids m' herase
    obtain rfl := opened_info ho
    exact changed_of_changing ho.inv ho.held herase
  selects_nil _ _ := rfl
  selects_of_mem _ _ := fun _ _ hid => List.contains_iff_mem.2 hid

end Chroma

end VectorBridge
