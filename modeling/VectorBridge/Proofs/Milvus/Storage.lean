import VectorBridge.Proofs.Family.Removal
import VectorBridge.Proofs.Family.Storage
import VectorBridge.Proofs.Milvus.Writing
/-!
# Rows of a Milvus server

A listing goes no further than the window of the server, so a collection that
fills it cannot be fetched whole; one that has fewer rows can. A removal of ids
goes by the expressions that select them.
-/

namespace VectorBridge

namespace Milvus

/-- The collections of a server. -/
def storage : Storage Memory Stored Row Expr where
  serverName := id
  held? m name := Keyed.get? name m.collections
  rows := Stored.rows
  withRows s rows := { s with rows }
  itemOf s row := itemOf s.schema row
  holds e row := e.holds row
  selects s ids row := s.schema.selects ids row

/-- Every collection is sound. -/
def Memory.Sound (m : Memory) : Prop :=
  ∀ name s, Keyed.get? name m.collections = some s → s.Sound

variable {m m' : Memory} {name : String} {s : Stored} {c : Opened}

theorem Memory.Sound.insert (h : m.Sound) (name : String) (hs : s.Sound) :
    Memory.Sound ⟨Keyed.insert name s m.collections⟩ :=
  Keyed.forall_insert h hs

theorem Memory.Sound.erase (h : m.Sound) (name : String) :
    Memory.Sound ⟨Keyed.erase name m.collections⟩ :=
  Keyed.forall_erase h name

/-- A new collection is sound when its schema is. -/
theorem Memory.Sound.withCollection (h : m.Sound) (name : String) {S : Schema} (hS : S.Apart) :
    (m.withCollection name S).Sound :=
  h.insert name ⟨hS, nofun, List.nodup_nil, List.nodup_nil⟩

/-- The servers with collections that are made for them, of any schemas whose
fields are told apart. -/
inductive Memory.Prepared : Memory → Prop where
  | empty : Prepared .empty
  | withCollection {m : Memory} (h : Prepared m) (name : String) {S : Schema} (hS : S.Apart) :
      Prepared (m.withCollection name S)

theorem Memory.Prepared.sound (h : m.Prepared) : m.Sound := by
  induction h with
  | empty => exact nofun
  | withCollection _ name hS ih => exact ih.withCollection name hS

theorem apart_plain (dimension : Option Nat) (metric : Metric) :
    Schema.Apart { Schema.plain with dimension, metric } where
  primary_ne_document := (by decide : primaryFieldName ≠ documentFieldName)
  primary_ne_vector := (by decide : primaryFieldName ≠ vectorFieldName)
  primary_ne_given := (by decide : primaryFieldName ≠ givenIdKey)
  vector_ne_given := (by decide : vectorFieldName ≠ givenIdKey)
  kind := (by decide : IdKind.nativeString ≠ .uuid)

/-- What holds of all collections, and of what a change makes of one, holds after
the change. -/
theorem forall_changing {P : Stored → Prop} {f : Stored → Except TransportError Stored}
    (hm : ∀ name s, Keyed.get? name m.collections = some s → P s)
    (hf : ∀ s s', Keyed.get? name m.collections = some s → f s = .ok s' → P s') :
    ∀ other s, Keyed.get? other (Memory.changing name f m).2.collections = some s → P s := by
  unfold Memory.changing Memory.find?
  cases hget : Keyed.get? name m.collections with
  | none => exact hm
  | some s =>
    simp only
    cases hfs : f s with
    | error e => exact hm
    | ok s' => exact Keyed.forall_insert hm (hf s s' hget hfs)

/-- A change of a collection that makes it a sound one. -/
theorem sound_changing {f : Stored → Except TransportError Stored} (hm : m.Sound)
    (hf : ∀ s s', Keyed.get? name m.collections = some s → f s = .ok s' → s'.Sound) :
    (Memory.changing name f m).2.Sound := forall_changing hm hf

/-- Removing rows keeps the rest sound. -/
theorem keeps_removing (name : String) (p : Row → Bool) :
    Step.Keeps Memory.Sound
      (Memory.changing name fun s => .ok { s with rows := s.rows.filter p }) := fun m hm =>
  sound_changing hm fun s s' hs h => by
    cases h
    exact (hm name s hs).filter p

/-- A change of a collection that is there fails, or puts what it makes of it. -/
theorem changing_of_error {f : Stored → Except TransportError Stored} {e : TransportError}
    (hs : Keyed.get? name m.collections = some s) (hf : f s = .error e) :
    Memory.changing name f m = (.error e, m) := by
  simp only [Memory.changing, Memory.find?, hs, hf]

theorem changing_of_ok {f : Stored → Except TransportError Stored} {s' : Stored}
    (hs : Keyed.get? name m.collections = some s) (hf : f s = .ok s') :
    Memory.changing name f m = (.ok (), ⟨Keyed.insert name s' m.collections⟩) := by
  simp only [Memory.changing, Memory.find?, hs, hf]

theorem changed_insert (m : Memory) (name : String) (s : Stored) :
    storage.Changed m ⟨Keyed.insert name s m.collections⟩ name s :=
  ⟨Keyed.get?_insert_self _ _ _, fun _ hne => Keyed.get?_insert_of_ne hne.symm _ _⟩

/-- What a change of a collection does when it succeeds. -/
theorem changed_of_changing {f : Stored → Stored} (hs : Keyed.get? name m.collections = some s)
    (h : Memory.changing name (fun s => .ok (f s)) m = (.ok (), m')) :
    storage.Changed m m' name (f s) := by
  rw [changing_of_ok (f := fun s => .ok (f s)) hs rfl] at h
  cases h
  exact changed_insert _ _ _

/-! ## Removing rows -/

theorem keeps_deleteAll (c : Opened) (selectors : List Expr) :
    Step.Keeps Memory.Sound (deleteAll (τ := Memory) c selectors) := by
  induction selectors with
  | nil => exact (Step.leaves_pure _).keeps
  | cons e rest ih =>
    exact Step.Keeps.bind (keeps_removing c.name fun row => !e.holds row) fun _ => ih

/-- Rows are removed selector by selector. -/
theorem changed_of_deleteAll {selectors : List Expr}
    (hs : Keyed.get? c.name m.collections = some s)
    (h : deleteAll c selectors m = (.ok (), m')) :
    storage.Changed m m' c.name
      (storage.keeping s fun row => !selectors.any fun e => e.holds row) := by
  induction selectors generalizing m s with
  | nil =>
    cases h
    have hall : s.rows.filter (fun row => !([] : List Expr).any fun e => e.holds row) = s.rows :=
      List.filter_eq_self.2 fun _ _ => rfl
    refine ⟨?_, fun _ _ => rfl⟩
    rw [Storage.keeping, show (storage.rows s).filter _ = s.rows from hall]
    exact hs
  | cons e rest ih =>
    obtain ⟨_, m₁, hfirst, hrest⟩ := Step.bind_eq_ok_iff.1 h
    have hchanged := changed_of_changing hs hfirst
    -- the later selectors meet the rows that the first one has left
    obtain ⟨hhere, hothers⟩ := ih hchanged.here hrest
    refine ⟨?_, fun other hne => (hothers other hne).trans (hchanged.others other hne)⟩
    rw [hhere]
    simp only [Storage.keeping, storage, List.filter_filter, List.any_cons, Bool.not_or,
      Bool.and_comm]

/-! ## The questions of the family -/

theorem leaves_reading {α : Type} (name : String) (f : Stored → α) :
    Step.Leaves (Memory.reading name f) := fun _ => rfl

theorem leaves_query (name : String) (filter : Option Expr) (offset limit : Nat) :
    Step.Leaves (Server.query (τ := Memory) name filter offset limit) := by
  show Step.Leaves (Memory.query name filter offset limit)
  unfold Memory.query
  split
  · exact Step.leaves_throw _
  · exact leaves_reading _ _

theorem leaves_openCollection (name : String) :
    Step.Leaves (openCollection (τ := Memory) name) :=
  (leaves_reading _ _).bind fun _ => Step.leaves_pure _

theorem leaves_selectAll (c : Opened) (limit : Nat) (selectors : List Expr) :
    Step.Leaves (selectAll (τ := Memory) c limit selectors) := by
  induction selectors with
  | nil => exact Step.leaves_pure _
  | cons e rest ih =>
    exact (leaves_query _ _ _ _).bind fun _ => ih.bind fun _ => Step.leaves_pure _

theorem leaves_searchAll (c : Opened) (limit : Nat) (filter : Option Expr)
    (vectors : List Embedding) : Step.Leaves (searchAll (τ := Memory) c limit filter vectors) := by
  induction vectors with
  | nil => exact Step.leaves_pure _
  | cons v rest ih =>
    exact (leaves_reading _ _).bind fun _ => ih.bind fun _ => Step.leaves_pure _

theorem leaves_toAction {α : Type} {x : Call Memory α} (h : Step.Leaves x) :
    Step.Leaves x.toAction := fun m => by rw [Session.toAction_snd, h]

theorem leaves_owners (c : Opened) (selector : Expr) (limit : Nat) :
    Step.Leaves (owners (τ := Memory) c selector limit) :=
  (leaves_query _ _ _ _).bind fun _ => Step.leaves_pure _

theorem leaves_ownersOfAll (c : Opened) (limit : Nat) (selectors : List Expr) :
    Step.Leaves (ownersOfAll (τ := Memory) c limit selectors) := by
  induction selectors with
  | nil => exact Step.leaves_pure _
  | cons e rest ih =>
    exact (leaves_owners _ _ _).bind fun _ => ih.bind fun _ => Step.leaves_pure _

theorem leaves_assignKeys (c : Opened) (items : List Item) :
    Step.Leaves (assignKeys (τ := Memory) c items) := by
  refine Step.Leaves.bind (fun _ => rfl) fun mapped => ?_
  split
  · exact Step.leaves_pure _
  · refine (leaves_toAction (leaves_ownersOfAll _ _ _)).bind fun held => ?_
    simp only
    split
    · exact Step.leaves_throw _
    · refine (leaves_toAction (leaves_owners _ _ _)).bind fun holders => ?_
      split
      · exact Step.leaves_throw _
      · exact Step.leaves_pure _

theorem eq_of_assignKeys {items : List Item} {r : Result (List MappedId)}
    (h : assignKeys c items m = (r, m')) : m' = m := by
  have hleaves := leaves_assignKeys c items m
  rwa [h] at hleaves

theorem leaves_readFrom (c : Opened) (filter : Option Expr) (offset : Nat) :
    Step.Leaves (readFrom (τ := Memory) c filter offset) := by
  -- every batch but the last brings the offset nearer to the window
  induction hleft : window - offset using Nat.strongRecOn generalizing offset with
  | _ left ih =>
    rw [readFrom]
    split
    · rename_i hlt
      have hbatch : 0 < batchSize := by decide
      refine (leaves_toAction (leaves_query _ _ _ _)).bind fun rows => ?_
      simp only
      split
      · exact Step.leaves_pure _
      · rename_i hfull
        exact (ih (window - (offset + rows.length)) (by omega) _ rfl).bind fun _ =>
          Step.leaves_pure _
    · exact Step.leaves_throw _

theorem readsOnly : (family (τ := Memory)).ReadsOnly where
  ping := Step.leaves_pure ()
  names _ := rfl
  count _ := leaves_reading _ _
  attach := leaves_openCollection
  inspect name := (leaves_openCollection name).bind fun _ => Step.leaves_pure _
  declaredWidth _ := (leaves_reading _ _).bind fun _ => Step.leaves_pure _
  probedWidth _ := (leaves_reading _ _).bind fun _ =>
    (leaves_query _ _ _ _).bind fun _ => Step.leaves_pure _
  fetch _ _ := (leaves_selectAll _ _ _).bind fun _ => Step.leaves_pure _
  sample _ _ := (leaves_query _ _ _ _).bind fun _ => Step.leaves_pure _
  fetchAll c filter := leaves_readFrom c filter 0
  readPage c filter request := by
    refine Step.Leaves.bind (fun _ => rfl) fun offset => ?_
    split
    · exact Step.leaves_throw _
    · exact (leaves_toAction (leaves_query _ _ _ _)).bind fun _ _ => rfl
  size _ := leaves_reading _ _
  nearest _ _ _ _ vectors := leaves_searchAll _ _ _ vectors

/-- What is opened is there, with its schema. -/
theorem attach_eq_ok (h : (family (τ := Memory)).attach name m = (.ok c, m')) :
    ∃ s, Keyed.get? name m.collections = some s ∧ c = ⟨name, s.schema⟩ := by
  obtain ⟨schema, m₁, hread, hpure⟩ := Step.bind_eq_ok_iff.1 h
  cases hpure
  cases hs : Keyed.get? name m.collections with
  | none =>
    simp only [Server.describe, Memory.reading, Call.read_apply, Memory.find?, hs,
      Except.map] at hread
    cases hread
  | some s =>
    simp only [Server.describe, Memory.reading, Call.read_apply, Memory.find?, hs,
      Except.map] at hread
    cases hread
    exact ⟨s, rfl, rfl⟩

/-- What is selected are rows read as items. -/
theorem selectAll_itemOf {limit : Nat} {selectors : List Expr} {items : List Item}
    (h : selectAll c limit selectors m = (.ok items, m')) :
    ∀ item ∈ items, ∃ row, itemOf c.schema row = item := by
  induction selectors generalizing m items with
  | nil =>
    cases h
    exact nofun
  | cons e rest ih =>
    obtain ⟨rows, m₁, -, hrest⟩ := Step.bind_eq_ok_iff.1 h
    obtain ⟨others, m₂, hothers, hpure⟩ := Step.bind_eq_ok_iff.1 hrest
    cases hpure
    intro item hitem
    rcases List.mem_append.1 hitem with hitem | hitem
    · obtain ⟨row, -, rfl⟩ := List.mem_map.1 hitem
      exact ⟨row, rfl⟩
    · exact ih hothers item hitem

theorem guards : (family (τ := Memory)).Guards Memory.Sound Metadata.Plain where
  create _ name width metric m hm := by
    show Memory.Sound (Memory.create name width metric m).2
    unfold Memory.create
    split
    · exact hm
    · exact hm.withCollection name (apart_plain _ _)
  drop name := by
    refine Step.Keeps.bind (leaves_openCollection name).keeps fun _ m hm => ?_
    exact hm.erase name
  eraseIds c ids := keeps_deleteAll c _
  eraseWhere c e := keeps_removing c.name fun row => !e.holds row
  write {name m c items} hm hattach hids hplain := by
    obtain ⟨s, hs, rfl⟩ := attach_eq_ok hattach
    have hsound := hm name s hs
    refine Step.keeps_bind_at ((leaves_assignKeys _ items).keeps m hm) fun keys m₁ hassign => ?_
    -- the rows are made under keys that were asked for before, and the server has not
    -- changed in between
    obtain ⟨rfl, hkeys, -⟩ := assignKeys_eq_ok hsound hs rfl hassign
    refine Step.keeps_bind_at hm fun rows m₂ hmake => ?_
    obtain ⟨hmade, rfl⟩ := Prod.mk.inj hmake
    obtain ⟨hrowKeys, hrowIds, hstored⟩ := rowsOf_eq_ok hsound hkeys hplain hmade
    rw [Session.toAction_snd]
    refine sound_changing hm fun s' s'' hs' hok => ?_
    obtain rfl := Option.some.inj (hs.symm.trans hs')
    unfold Stored.upsert at hok
    split at hok
    · cases hok
    · cases hok
      exact hsound.foldl_place hrowKeys (hrowIds ▸ hids) hstored
  plain_fetch _ _ hfetch item hitem := by
    obtain ⟨items, m₁, hselect, hpure⟩ := Step.bind_eq_ok_iff.1 hfetch
    cases hpure
    obtain ⟨row, rfl⟩ := selectAll_itemOf hselect item
      ((Batch.inOrderOf_perm _ _).subset hitem)
    exact plain_itemOf _ row

/-! ## Reading -/

variable {I : Memory → Prop}

theorem opened_eq (ho : storage.Opened family I m name c s) : c = ⟨name, s.schema⟩ := by
  obtain ⟨s', hs', rfl⟩ := attach_eq_ok ho.attach
  obtain rfl := Option.some.inj (hs'.symm.trans ho.held)
  rfl

theorem passing_eq (s : Stored) (filter : Option Expr) :
    storage.passing s filter = (s.passing filter).map (itemOf s.schema) := rfl

/-- **A listing is read whole when it ends before the window**, and else not at
all. -/
theorem readFrom_eq {filter : Option Expr} (hs : Keyed.get? c.name m.collections = some s)
    {offset : Nat} (hwindow : offset ≤ window) (hle : offset ≤ (s.passing filter).length) :
    readFrom c filter offset m =
      (if (s.passing filter).length < window then
        .ok (((s.passing filter).drop offset).map (itemOf c.schema))
      else .error (.limitExceeded s!"Milvus queries stop at {window} rows, narrow the filter"),
        m) := by
  -- on what is left of the window; a full batch comes nearer to it
  induction hleft : window - offset using Nat.strongRecOn generalizing offset with
  | _ left ih =>
    have hbatch : 0 < batchSize := by decide
    rw [readFrom]
    split
    · rename_i hlt
      have hlimit : min batchSize (window - offset) ≤ window - offset := Nat.min_le_right _ _
      have hquery : Server.query c.name filter offset (min batchSize (window - offset)) m = _ :=
        query_apply hs (by omega)
      rw [Step.bind_of_ok (Call.toAction_of_ok hquery)]
      simp only [List.length_take, List.length_drop]
      split
      · rename_i hlast
        -- a batch that is not full is the last
        have hend : (s.passing filter).length < window := by omega
        rw [if_pos hend, List.take_of_length_le (by rw [List.length_drop]; omega)]
        rfl
      · rename_i hfull
        have hread : min (min batchSize (window - offset)) ((s.passing filter).length - offset) =
            min batchSize (window - offset) := by omega
        have hwindow' : offset + min batchSize (window - offset) ≤ window := by omega
        have hrest := ih _ (by omega) hwindow' (by omega) rfl
        rw [hread]
        by_cases hend : (s.passing filter).length < window
        · rw [if_pos hend] at hrest ⊢
          rw [Step.bind_of_ok hrest, ← List.map_append, ← List.drop_drop, List.take_append_drop]
          rfl
        · rw [if_neg hend] at hrest ⊢
          rw [Step.bind_of_error hrest]
    · rename_i hend
      rw [if_neg (by omega)]
      rfl

theorem fetchAll_of_opened (ho : storage.Opened family I m name c s) (filter : Option Expr) :
    family.fetchAll c filter m =
      (if (storage.passing s filter).length < window then .ok (storage.passing s filter)
      else .error (.limitExceeded s!"Milvus queries stop at {window} rows, narrow the filter"),
        m) := by
  obtain rfl := opened_eq ho
  have hs : Keyed.get? (Opened.mk name s.schema).name m.collections = some s := ho.held
  have hread := readFrom_eq hs (Nat.zero_le _) (Nat.zero_le (s.passing filter).length)
  rw [passing_eq, List.length_map]
  exact hread

/-- Rows read at an offset, within the window. -/
def rowsAt (c : Opened) (filter : Option Expr) (size offset : Nat) : Action Memory (List Row) :=
  if offset + size > window then throw (.limitExceeded s!"Milvus pages end at row {window}")
  else (Server.query c.name filter offset size).toAction

theorem readPage_eq (c : Opened) (filter : Option Expr) (token : Option PageToken) (size : Nat) :
    (family (τ := Memory)).readPage c filter ⟨token, size⟩ =
      Storage.pageAt (rowsAt c filter size) (fun rows => rows.map (itemOf c.schema))
        ⟨token, size⟩ := by
  show (Action.ofResult _ >>= _) = (Action.ofResult _ >>= _)
  congr 1
  funext offset m
  unfold rowsAt
  split <;> rfl

theorem rowsAt_eq_ok (ho : storage.Opened family I m name c s) {filter : Option Expr}
    {size offset : Nat} {rows : List Row} (h : rowsAt c filter size offset m = (.ok rows, m')) :
    rows.map (itemOf c.schema) = ((storage.passing s filter).drop offset).take size ∧ m' = m := by
  obtain rfl := opened_eq ho
  unfold rowsAt at h
  split at h
  · cases h
  · obtain ⟨rfl, -, rfl⟩ := query_eq_ok ho.held (Call.toAction_eq_ok_iff.1 h)
    exact ⟨by rw [passing_eq, List.map_take, List.map_drop], rfl⟩

/-- A drain reads the rows that pass, whatever else is on the server. -/
theorem drains_eq_passing (ho : storage.Opened family I m name c s) {filter : Option Expr}
    {sizes : List Nat} {items : List Item}
    (hdrain : Drains (family.readPage c filter) none sizes m items m') :
    items = storage.passing s filter :=
  Storage.drains_pageAt _ _ (fun token size => readPage_eq c filter token size)
    (fun hread => rowsAt_eq_ok ho hread) hdrain

/-- A first page that is not full has all the rows that pass. -/
theorem readPage_of_short (ho : storage.Opened family I m name c s) {filter : Option Expr}
    {size : Nat} (hsize : size ≤ window) (hshort : (storage.passing s filter).length < size) :
    family.readPage c filter (.first size) m = (.ok ⟨storage.passing s filter, none⟩, m) := by
  obtain rfl := opened_eq ho
  have hquery : Server.query (τ := Memory) name filter 0 size m = _ :=
    query_apply ho.held (by omega)
  have hread : rowsAt ⟨name, s.schema⟩ filter size 0 m = (.ok (s.passing filter), m) := by
    rw [passing_eq, List.length_map] at hshort
    rw [rowsAt, if_neg (by omega), Call.toAction_of_ok hquery, List.drop_zero,
      List.take_of_length_le (Nat.le_of_lt hshort)]
  rw [PageRequest.first, readPage_eq]
  exact Storage.pageAt_of_short _ _ hread hshort

/-- **The questions of the family do to the rows what they are to do.** -/
theorem lawful : storage.Lawful (family (τ := Memory)) Memory.Sound where
  rows_withRows _ _ := rfl
  withRows_rows _ := rfl
  itemOf_withRows _ _ := rfl
  reads := readsOnly
  held_of_readPage hattach := fun _ => (attach_eq_ok hattach).imp fun _ h => h.1
  held_of_fetchAll hattach := fun _ => (attach_eq_ok hattach).imp fun _ h => h.1
  attach_of_held := by
    intro name m s hs
    have hs' : Keyed.get? name m.collections = some s := hs
    refine ⟨⟨name, s.schema⟩, Step.bind_of_ok ?_ _⟩
    simp only [Server.describe, Memory.reading, Call.read_apply, Memory.find?, hs', Except.map]
  nodup := by
    intro m name s hm hs
    rw [Storage.items, List.map_map]
    exact (hm name s hs).ids
  drains_readPage := by
    intro m name c s ho fragment sizes items m' hdrain
    exact drains_eq_passing ho hdrain
  readPage_of_nil := by
    intro m name c s ho fragment hnone
    have hshort : (storage.passing s fragment).length < 1 := by
      rw [hnone]
      exact Nat.zero_lt_one
    have hwindow : 1 ≤ window := by decide
    rw [readPage_of_short ho hwindow hshort, hnone]
  fetchAll_eq := by
    intro m name c s ho fragment items m' hread
    rw [fetchAll_of_opened ho] at hread
    split at hread
    · cases hread
      rfl
    · cases hread
  fetchAll_of_le := by
    intro m name c s m₂ c₂ s₂ ho ho₂ fragment items hread hle
    rw [fetchAll_of_opened ho] at hread
    split at hread
    · rename_i hlt
      refine ⟨storage.passing s₂ fragment, ?_⟩
      rw [fetchAll_of_opened ho₂, if_pos (Nat.lt_of_le_of_lt hle hlt)]
    · cases hread
  eraseWhere_ok := by
    intro m name c s ho fragment m' herase
    obtain rfl := opened_eq ho
    exact changed_of_changing ho.held herase
  eraseIds_ok := by
    intro m name c s ho ids m' herase
    obtain rfl := opened_eq ho
    exact changed_of_deleteAll (c := ⟨name, s.schema⟩) ho.held herase
  selects_nil := by
    intro s row
    show s.schema.selects [] row = false
    unfold Schema.selects idSelectors
    split
    · rw [List.any_cons, List.any_nil, Bool.or_false]
      simp only [Expr.primaryIn, List.map_nil, holds_isIn, List.any_nil]
      cases Keyed.get? (Field.schema s.schema.primaryField).name row <;> rfl
    · rfl
  selects_of_mem := by
    intro m name s hm hs row hrow ids hid
    have hsound := hm name s hs
    show s.schema.selects ids row = true
    have hcontains : ids.contains (itemOf s.schema row).id = true := List.contains_iff_mem.2 hid
    -- an id selects its own row under either kind of key
    by_cases hkind : s.schema.idKind = .integer
    · obtain ⟨k, -, hkey, -⟩ := (hsound.keys row hrow).of_integer hkind
      rw [selects_of_integer hsound.apart hkind hkey (hsound.keys row hrow), hcontains,
        Bool.true_or]
    · rw [selects_of_ne_integer hsound.apart hkind (hsound.keys row hrow), hcontains]

end Milvus

/-! ## Rows that a Milvus server takes for others

A removal by a filter that the server does not evaluate whole names the keys of
the items that were found. Integer keys are compared as binary64 values, and of
two great integers that are one as such the server cannot tell which was meant:
the row of the other is removed as well.
-/

namespace Milvus

/-- Whether the key of a row is near one of the numbers among some ids. -/
def Schema.near (S : Schema) (ids : List String) (row : Row) : Bool :=
  match keyOf S row with
  | .integer k => nearKey (numbersOf ids) k
  | _ => false

/-- The items of a collection that are taken for some of its items when these
are removed by id. -/
def Stored.mistaken (s : Stored) (items : List Item) : List Item :=
  if s.schema.idKind = .integer then
    (s.rows.filter fun row => s.schema.near (items.map (·.id)) row &&
      !(items.map (·.id)).contains (itemOf s.schema row).id).map (itemOf s.schema)
  else []

/-- **What is removed beyond the items that were found** is what the server takes
for them. -/
theorem mistaken_eq {s : Stored} {compiled : CompiledFilter Expr} (hs : s.Sound)
    (hcomplete : compiled.isComplete = false) :
    storage.mistaken s compiled = s.mistaken (storage.matching s compiled) := by
  have hremoves : ∀ row, storage.removes s compiled row =
      s.schema.selects ((storage.matching s compiled).map (·.id)) row := by
    intro row
    rw [Storage.removes, hcomplete, if_neg Bool.false_ne_true]
    rfl
  have hitem : ∀ row, storage.itemOf s row = itemOf s.schema row := fun _ => rfl
  rw [Storage.mistaken, Stored.mistaken]
  by_cases hkind : s.schema.idKind = .integer
  · rw [if_pos hkind]
    refine congrArg (List.map (itemOf s.schema)) (List.filter_congr fun row hrow => ?_)
    -- a row that is selected but not seen has a key near one of the numbers
    obtain ⟨k, hk, hkey, -⟩ := (hs.keys row hrow).of_integer hkind
    have hnear : ∀ ids, s.schema.near ids row = nearKey (numbersOf ids) k := fun ids => by
      rw [Schema.near, keyOf_nat hk hkey]
    rw [hremoves, selects_of_integer hs.apart hkind hkey (hs.keys row hrow), hnear, hitem]
    generalize ((storage.matching s compiled).map (·.id)).contains (itemOf s.schema row).id = seen
    cases seen <;> simp
  · rw [if_neg hkind, List.map_eq_nil_iff, List.filter_eq_nil_iff]
    intro row hrow
    rw [hremoves, selects_of_ne_integer hs.apart hkind (hs.keys row hrow), hitem, Bool.and_not_self]
    exact Bool.false_ne_true

/-- A number among the ids of stored items is the key of one of them. -/
theorem exists_key_of_numbersOf {s : Stored} (hs : s.Sound) {items : List Item}
    (hitems : items ⊆ storage.items s) {n : Nat} (hn : n ∈ numbersOf (items.map (·.id)))
    (hkind : s.schema.idKind = .integer) :
    ∃ row ∈ s.rows, (itemOf s.schema row).id ∈ items.map (·.id) ∧
      s.schema.key row = some (.nat n) ∧ n < Word.span64 := by
  obtain ⟨id, hid, hplain⟩ := List.mem_filterMap.1 hn
  obtain ⟨item, hitem, rfl⟩ := List.mem_map.1 hid
  obtain ⟨row, hrow, hread⟩ := List.mem_map.1 (hitems hitem)
  have hread' : itemOf s.schema row = item := hread
  obtain ⟨k, hk, hkey, hgiven⟩ := (hs.keys row hrow).of_integer hkind
  -- a row whose id is a number has no id beside its key
  have hkn : k = n := by
    rcases hgiven with hnone | ⟨given, hsome, hnamed⟩
    · rw [← hread', itemOf_id_of_none hs.apart hnone, keyOf_nat hk hkey] at hplain
      exact Option.some.inj ((plainNumber?_toString hk).symm.trans hplain)
    · rw [← hread', itemOf_id_of_given hs.apart hsome, hnamed] at hplain
      cases hplain
  rw [hkn] at hkey hk
  exact ⟨row, hrow, hread' ▸ hid, hkey, hk⟩

/-- **Keys that binary64 values tell apart are not mistaken.** -/
theorem mistaken_eq_nil {s : Stored} (hs : s.Sound)
    (hsmall : ∀ row ∈ s.rows, ∀ k, keyOf s.schema row = .integer k → k < 2 ^ 53)
    {items : List Item} (hitems : items ⊆ storage.items s) : s.mistaken items = [] := by
  rw [Stored.mistaken]
  split
  · rename_i hkind
    rw [List.map_eq_nil_iff, List.filter_eq_nil_iff]
    intro row hrow hboth
    obtain ⟨hnear, hunseen⟩ := Bool.and_eq_true_iff.1 hboth
    obtain ⟨k, hk, hkey, -⟩ := (hs.keys row hrow).of_integer hkind
    rw [Schema.near, keyOf_nat hk hkey] at hnear
    obtain ⟨n, hn, heq⟩ := List.any_eq_true.1 hnear
    -- the number is the key of a row that was found, and so of this row
    obtain ⟨row', hrow', hid, hkey', hn'⟩ := exists_key_of_numbersOf hs hitems hn hkind
    obtain rfl := Number.eq_of_looseEq_int (hsmall row hrow k (keyOf_nat hk hkey))
      (hsmall row' hrow' n (keyOf_nat hn' hkey')) heq
    obtain rfl := List.inj_on_of_nodup_map hs.distinct hrow hrow' (hkey.trans hkey'.symm)
    rw [List.contains_iff_mem.2 hid] at hunseen
    cases hunseen
  · rfl

end Milvus

end VectorBridge
