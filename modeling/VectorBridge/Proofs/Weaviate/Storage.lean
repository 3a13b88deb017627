import VectorBridge.Proofs.Family.Storage
import VectorBridge.Proofs.Identifier
import VectorBridge.Proofs.Placing
import VectorBridge.Weaviate.Memory
import VectorBridge.Weaviate.Store
/-!
# Objects of a Weaviate server

A collection is the class of its capitalized name, and two collections may be
one class. An object stands under a UUID, and what makes a removal of ids select
the objects of these ids is that the UUID of an object is the one its item's id
has, whatever calls have put it there.
-/

namespace VectorBridge

namespace Weaviate

/-- The classes of a server. -/
def storage : Storage Memory Stored Object Where where
  serverName := className
  held? m name := Keyed.get? name m.classes
  rows := Stored.objects
  withRows s objects := { s with objects }
  itemOf _ o := o.toItem
  holds w o := w.holds o.properties
  selects _ ids o := ids.any fun id => (uuidKey id).1 = o.id

/-- A class is defined under its name, and an object is the only one of its UUID,
which is that of its item's id. -/
structure Stored.Faithful (s : Stored) (name : String) : Prop where
  named : s.definition.name = name
  distinct : (s.objects.map (·.id)).Nodup
  keyed : ∀ o ∈ s.objects, (uuidKey o.toItem.id).1 = o.id

/-- Every class is faithful. -/
def Memory.Faithful (m : Memory) : Prop :=
  ∀ name s, Keyed.get? name m.classes = some s → s.Faithful name

variable {m m' : Memory} {name : String} {s : Stored}

theorem Memory.Faithful.insert (h : m.Faithful) (hs : s.Faithful name) :
    Memory.Faithful ⟨Keyed.insert name s m.classes⟩ :=
  Keyed.forall_insert h hs

theorem Memory.Faithful.erase (h : m.Faithful) (name : String) :
    Memory.Faithful ⟨Keyed.erase name m.classes⟩ :=
  Keyed.forall_erase h name

theorem Stored.Faithful.filter (h : s.Faithful name) (p : Object → Bool) :
    Stored.Faithful { s with objects := s.objects.filter p } name where
  named := h.named
  distinct := h.distinct.sublist (List.filter_sublist.map _)
  keyed o ho := h.keyed o (List.mem_filter.1 ho).1

/-! ## Writing -/

theorem place_eq (o : Object) (objects : List Object) :
    place o objects = placeBy (fun o' => o'.id = o.id) o objects := by
  induction objects with
  | nil => rfl
  | cons o' rest ih => simp only [place, placeBy, ih, decide_eq_true_eq]

/-- The object of an item is read under the item's id exactly when the id survives. -/
theorem toItem_ofItem_id_iff (item : Item) :
    (Object.ofItem item).toItem.id = item.id ↔ item.IdSurvives (uuidKey item.id).2 := by
  have hne : documentProperty ≠ givenIdKey := by decide
  exact Item.recover_folded_id_iff hne

theorem toItem_ofItem_id {item : Item} (h : Metadata.Plain item.metadata) :
    (Object.ofItem item).toItem.id = item.id :=
  (toItem_ofItem_id_iff item).2 (Item.idSurvives_of_plain h _)

theorem Stored.Faithful.write (h : s.Faithful name) {item : Item}
    (hplain : Metadata.Plain item.metadata) : (s.write (.ofItem item)).Faithful name where
  named := h.named
  distinct := by
    rw [Stored.write, place_eq]
    exact placeBy.nodup (fun o _ => decide_eq_true_iff) h.distinct
  keyed := by
    intro o ho
    rw [Stored.write, place_eq] at ho
    rcases placeBy.eq_or_mem (fun o _ => decide_eq_true_iff) h.distinct ho with rfl | ⟨hold, -⟩
    · rw [toItem_ofItem_id hplain]
      rfl
    · exact h.keyed o hold

theorem Stored.Faithful.foldl_write {items : List Item} (h : s.Faithful name)
    (hplain : ∀ item ∈ items, Metadata.Plain item.metadata) :
    ((items.map Object.ofItem).foldl Stored.write s).Faithful name := by
  induction items generalizing s with
  | nil => exact h
  | cons item items ih =>
    rw [List.forall_mem_cons] at hplain
    exact ih (h.write hplain.1) hplain.2

/-- What holds of all classes, and of what a change makes of one, holds after the
change. -/
theorem forall_changing {P : String → Stored → Prop} {f : Stored → Stored}
    (hm : ∀ name s, Keyed.get? name m.classes = some s → P name s)
    (hf : ∀ s, P name s → P name (f s)) :
    ∀ other s, Keyed.get? other (Memory.changing name f m).2.classes = some s → P other s := by
  unfold Memory.changing Memory.find?
  cases hget : Keyed.get? name m.classes with
  | none => exact hm
  | some s => exact Keyed.forall_insert hm (hf s (hm name s hget))

/-- A change of a class that keeps it faithful. -/
theorem keeps_changing {f : Stored → Stored} (name : String)
    (hf : ∀ s, s.Faithful name → (f s).Faithful name) :
    Step.Keeps Memory.Faithful (Memory.changing name f) := fun m hm =>
  forall_changing (m := m) hm hf

/-- A change of a class that is there puts what it makes of it. -/
theorem changing_apply (hs : Keyed.get? name m.classes = some s) (f : Stored → Stored) :
    Memory.changing name f m = (.ok (), ⟨Keyed.insert name (f s) m.classes⟩) := by
  simp only [Memory.changing, Memory.find?, hs]

theorem changed_insert (m : Memory) (name : String) (s : Stored) :
    storage.Changed m ⟨Keyed.insert name s m.classes⟩ name s :=
  ⟨Keyed.get?_insert_self _ _ _, fun _ hne => Keyed.get?_insert_of_ne hne.symm _ _⟩

/-- What a change of a class does when it succeeds. -/
theorem changed_of_changing {f : Stored → Stored} (hs : Keyed.get? name m.classes = some s)
    (h : Memory.changing name f m = (.ok (), m')) : storage.Changed m m' name (f s) := by
  rw [changing_apply hs] at h
  cases h
  exact changed_insert _ _ _

theorem keeps_deleteAll (name : String) (ids : List String) :
    Step.Keeps Memory.Faithful (deleteAll (τ := Memory) name ids) := by
  induction ids with
  | nil => exact (Step.leaves_pure _).keeps
  | cons id rest ih =>
    exact Step.Keeps.bind (keeps_changing name fun s hs => hs.filter _) fun _ => ih

/-- Objects are removed id by id. -/
theorem changed_of_deleteAll {ids : List String} (hs : Keyed.get? name m.classes = some s)
    (h : deleteAll name ids m = (.ok (), m')) :
    storage.Changed m m' name (storage.keeping s fun o => !storage.selects s ids o) := by
  induction ids generalizing m s with
  | nil =>
    cases h
    have hall : s.objects.filter (fun o => !storage.selects s [] o) = s.objects :=
      List.filter_eq_self.2 fun o _ => rfl
    refine ⟨?_, fun _ _ => rfl⟩
    rw [Storage.keeping, show (storage.rows s).filter _ = s.objects from hall]
    exact hs
  | cons id rest ih =>
    obtain ⟨_, m₁, hfirst, hrest⟩ := Step.bind_eq_ok_iff.1 h
    have hchanged := changed_of_changing hs hfirst
    obtain ⟨hhere, hothers⟩ := ih hchanged.here hrest
    refine ⟨?_, fun other hne => (hothers other hne).trans (hchanged.others other hne)⟩
    rw [hhere]
    simp only [Storage.keeping, storage, List.filter_filter, List.any_cons, Bool.not_or]
    congr 2
    refine List.filter_congr fun o _ => ?_
    rw [Bool.and_comm]
    congr 1
    simp [eq_comm]

/-! ## The questions of the family -/

theorem leaves_reading {α : Type} (name : String) (f : Stored → α) :
    Step.Leaves (Memory.reading name f) := fun _ => rfl

theorem leaves_openCollection (name : String) :
    Step.Leaves (openCollection (τ := Memory) name) :=
  (leaves_reading _ _).bind fun _ => Step.leaves_pure _

theorem leaves_getAll (name : String) (ids : List String) :
    Step.Leaves (getAll (τ := Memory) name ids) := by
  induction ids with
  | nil => exact Step.leaves_pure _
  | cons id rest ih =>
    exact (leaves_reading _ _).bind fun _ => ih.bind fun _ => Step.leaves_pure _

theorem leaves_readFrom (c : Class) (filter : Option Where) (rounds offset : Nat) :
    Step.Leaves (readFrom (τ := Memory) c filter rounds offset) := by
  induction rounds generalizing offset with
  | zero => exact Step.leaves_pure _
  | succ rounds ih =>
    refine (leaves_reading _ _).bind fun objects => ?_
    simp only
    split
    · exact Step.leaves_pure _
    · exact (ih _).bind fun _ => Step.leaves_pure _

theorem leaves_searchAll (c : Class) (limit : Nat) (filter : Option Where)
    (vectors : List Embedding) : Step.Leaves (searchAll (τ := Memory) c limit filter vectors) := by
  induction vectors with
  | nil => exact Step.leaves_pure _
  | cons v rest ih =>
    exact (leaves_reading _ _).bind fun _ => ih.bind fun _ => Step.leaves_pure _

theorem readsOnly : (family (τ := Memory)).ReadsOnly where
  ping := Step.leaves_pure ()
  names _ := rfl
  count name := (leaves_openCollection name).bind fun _ => leaves_reading _ _
  attach := leaves_openCollection
  inspect name := (leaves_openCollection name).bind fun _ => Step.leaves_pure _
  declaredWidth _ := Step.leaves_pure _
  probedWidth _ := (leaves_reading _ _).bind fun _ =>
    (leaves_reading _ _).bind fun _ => Step.leaves_pure _
  fetch _ ids := leaves_getAll _ ids
  sample _ _ := (leaves_reading _ _).bind fun _ => Step.leaves_pure _
  fetchAll c filter := Step.Leaves.bind (fun _ => rfl) fun m m' => by
    rw [Session.toAction_snd, leaves_readFrom]
  readPage _ _ _ := Step.Leaves.bind (fun _ => rfl) fun _ =>
    Step.Leaves.bind (fun m => Session.toAction_snd _ m) fun _ _ => rfl
  size _ := leaves_reading _ _
  nearest _ _ _ _ vectors := leaves_searchAll _ _ _ vectors

theorem attach_eq_ok {c : Opened} (h : (family (τ := Memory)).attach name m = (.ok c, m')) :
    ∃ s, Keyed.get? (className name) m.classes = some s ∧ c = ⟨name, s.definition⟩ := by
  obtain ⟨definition, m₁, hread, hpure⟩ := Step.bind_eq_ok_iff.1 h
  cases hpure
  cases hs : Keyed.get? (className name) m.classes with
  | none =>
    simp only [Server.describe, Memory.reading, Call.read_apply, Memory.find?, hs,
      Except.map] at hread
    cases hread
  | some s =>
    simp only [Server.describe, Memory.reading, Call.read_apply, Memory.find?, hs,
      Except.map] at hread
    cases hread
    exact ⟨s, rfl, rfl⟩

/-- What is fetched are objects read as items. -/
theorem getAll_toItem {ids : List String} {items : List Item}
    (h : getAll name ids m = (.ok items, m')) : ∀ item ∈ items, ∃ o : Object, o.toItem = item := by
  induction ids generalizing m items with
  | nil =>
    cases h
    exact fun item hitem => by cases hitem
  | cons id rest ih =>
    obtain ⟨found, m₁, -, hrest⟩ := Step.bind_eq_ok_iff.1 h
    obtain ⟨others, m₂, hothers, hpure⟩ := Step.bind_eq_ok_iff.1 hrest
    cases hpure
    intro item hitem
    rcases List.mem_append.1 hitem with hitem | hitem
    · obtain ⟨o, -, rfl⟩ := List.mem_map.1 hitem
      exact ⟨o, rfl⟩
    · exact ih hothers item hitem

theorem guards : (family (τ := Memory)).Guards Memory.Faithful Metadata.Plain where
  create c name width metric m hm := by
    show Memory.Faithful (Memory.create (className name) metric m).2
    unfold Memory.create
    split
    · exact hm
    · exact hm.insert ⟨rfl, List.nodup_nil, fun o ho => by cases ho⟩
  drop name m hm := hm.erase (className name)
  eraseIds c ids := keeps_deleteAll _ ids
  eraseWhere c w := keeps_changing _ fun s hs => hs.filter _
  write {name m c items} hm _ _ hplain := by
    refine Step.keeps_bind_at hm fun _ m₁ hrun => ?_
    obtain ⟨-, rfl⟩ := Prod.mk.inj hrun
    show Memory.Faithful (Call.toAction _ m).2
    rw [Session.toAction_snd]
    exact keeps_changing _ (fun s hs => hs.foldl_write hplain) m hm
  plain_fetch _ _ hfetch item hitem := by
    obtain ⟨o, rfl⟩ := getAll_toItem hfetch item hitem
    exact IdKind.plain_recover _ _

/-! ## Reading -/

variable {I : Memory → Prop}

theorem handle_eq {c : Opened} (ho : storage.Opened family I m name c s) :
    c = ⟨name, s.definition⟩ := by
  obtain ⟨s', hs', rfl⟩ := attach_eq_ok ho.attach
  obtain rfl := Option.some.inj (hs'.symm.trans ho.held)
  rfl

theorem opened_eq {c : Opened} (ho : storage.Opened family Memory.Faithful m name c s) :
    c = ⟨name, s.definition⟩ ∧ s.definition.name = className name :=
  ⟨handle_eq ho, (ho.inv _ _ ho.held).named⟩

/-- What is read of a class that is there. -/
theorem reading_apply {α : Type} (hs : Keyed.get? name m.classes = some s) (f : Stored → α) :
    Memory.reading name f m = (.ok (f s), m) := by
  rw [Memory.reading, Call.read_apply, Memory.find?, hs]
  rfl

/-- The objects that satisfy a filter are those listed, as items. -/
theorem passing_eq (s : Stored) (filter : Option Where) :
    storage.passing s filter = (s.passing filter).map Object.toItem := rfl

/-- **Reading batch by batch reads all**, when there are more rounds than objects. -/
theorem readFrom_eq {c : Class} {filter : Option Where}
    (hs : Keyed.get? c.name m.classes = some s) {rounds offset : Nat}
    (h : (s.passing filter).length - offset < rounds) :
    readFrom c filter rounds offset m =
      (.ok (((s.passing filter).drop offset).map Object.toItem), m) := by
  induction rounds generalizing offset with
  | zero => omega
  | succ rounds ih =>
    have hlist : Server.list c filter offset batchSize m = _ :=
      reading_apply hs fun s => ((s.passing filter).drop offset).take batchSize
    have hbatch : 0 < batchSize := by decide
    rw [readFrom, Step.bind_of_ok hlist]
    simp only [List.length_take, List.length_drop]
    split
    · rename_i hlast
      rw [List.take_of_length_le (by rw [List.length_drop]; omega)]
      rfl
    · rename_i hmore
      have hfull : min batchSize ((s.passing filter).length - offset) = batchSize := by omega
      have hrest : (s.passing filter).length - (offset + batchSize) < rounds := by omega
      rw [hfull, Step.bind_of_ok (ih hrest), ← List.map_append, ← List.drop_drop,
        List.take_append_drop]
      rfl

/-- A class has fewer objects than a listing of it has rounds. -/
theorem length_passing_lt (hs : Keyed.get? name m.classes = some s) (filter : Option Where) :
    (s.passing filter).length < Server.rounds m := by
  have hmem : s ∈ Keyed.values m.classes := List.mem_map_of_mem (Keyed.mem_of_get? hs)
  have hle : s.objects.length ≤ Keyed.total (fun s => s.objects.length) m.classes :=
    Keyed.measure_le_total (fun s => s.objects.length) hmem
  have hpass : (s.passing filter).length ≤ s.objects.length := List.length_filter_le _ _
  show _ < Keyed.total (fun s => s.objects.length) m.classes + 2
  omega

theorem fetchAll_of_opened {c : Opened} (ho : storage.Opened family I m name c s)
    (hname : s.definition.name = className name) (filter : Option Where) :
    family.fetchAll c filter m = (.ok (storage.passing s filter), m) := by
  obtain rfl := handle_eq ho
  have hs : Keyed.get? s.definition.name m.classes = some s := by rw [hname]; exact ho.held
  have hrounds : (s.passing filter).length - 0 < Server.rounds m := length_passing_lt hs filter
  have hread := readFrom_eq hs hrounds
  show (get >>= fun m : Memory =>
    (readFrom s.definition filter (Server.rounds m) 0).toAction : Action Memory _) m = _
  rw [Step.bind_of_ok (Step.get_apply m), Call.toAction_of_ok hread, passing_eq, List.drop_zero]

theorem list_of_opened {c : Opened} (ho : storage.Opened family I m name c s)
    (hname : s.definition.name = className name) (filter : Option Where) (offset size : Nat) :
    (Server.list c.definition filter offset size).toAction m =
      (.ok (((s.passing filter).drop offset).take size), m) := by
  obtain rfl := handle_eq ho
  have hs : Keyed.get? s.definition.name m.classes = some s := by rw [hname]; exact ho.held
  exact Call.toAction_of_ok (reading_apply hs _)

/-- A drain of a class under its name reads the objects that pass. -/
theorem drains_eq_passing {c : Opened} (ho : storage.Opened family I m name c s)
    (hname : s.definition.name = className name) {filter : Option Where} {sizes : List Nat}
    {items : List Item} (hdrain : Drains (family.readPage c filter) none sizes m items m') :
    items = storage.passing s filter := by
  refine Storage.drains_pageAt
    (fun size offset => (Server.list c.definition filter offset size).toAction)
    (fun objects => objects.map Object.toItem) (fun _ _ => rfl) ?_ hdrain
  intro size offset answer m₁ hread
  rw [list_of_opened ho hname] at hread
  cases hread
  exact ⟨by rw [passing_eq, List.map_take, List.map_drop], rfl⟩

/-- A first page that is not full has all the objects that pass. -/
theorem readPage_of_short {c : Opened} (ho : storage.Opened family I m name c s)
    (hname : s.definition.name = className name) {filter : Option Where} {size : Nat}
    (hshort : (storage.passing s filter).length < size) :
    family.readPage c filter (.first size) m = (.ok ⟨storage.passing s filter, none⟩, m) := by
  rw [passing_eq, List.length_map] at hshort
  have hread := list_of_opened ho hname filter 0 size
  rw [List.drop_zero, List.take_of_length_le (Nat.le_of_lt hshort)] at hread
  rw [← List.length_map (f := Object.toItem)] at hshort
  exact Storage.pageAt_of_short
    (fun offset => (Server.list c.definition filter offset size).toAction)
    (fun objects => objects.map Object.toItem) hread hshort

/-- **The questions of the family do to the objects what they are to do.** -/
theorem lawful : storage.Lawful (family (τ := Memory)) Memory.Faithful where
  rows_withRows _ _ := rfl
  withRows_rows _ := rfl
  itemOf_withRows _ _ := rfl
  reads := readsOnly
  held_of_readPage hattach := fun _ => (attach_eq_ok hattach).imp fun _ h => h.1
  held_of_fetchAll hattach := fun _ => (attach_eq_ok hattach).imp fun _ h => h.1
  attach_of_held := by
    intro name m s hs
    exact ⟨⟨name, s.definition⟩, Step.bind_of_ok (reading_apply hs _) _⟩
  nodup := by
    intro m name s hm hs
    have hfaithful := hm name s hs
    -- items of one id would be objects of one UUID
    refine List.Nodup.of_map (fun id => (uuidKey id).1) ?_
    rw [Storage.items, List.map_map, List.map_map]
    have hkeys : (storage.rows s).map (fun o => (uuidKey (storage.itemOf s o).id).1) =
        s.objects.map (·.id) := List.map_congr_left hfaithful.keyed
    exact hkeys ▸ hfaithful.distinct
  drains_readPage := by
    intro m name c s ho fragment sizes items m' hdrain
    exact drains_eq_passing ho (opened_eq ho).2 hdrain
  readPage_of_nil := by
    intro m name c s ho fragment hnone
    have hshort : (storage.passing s fragment).length < 1 := by
      rw [hnone]
      exact Nat.zero_lt_one
    rw [readPage_of_short ho (opened_eq ho).2 hshort, hnone]
  fetchAll_eq := by
    intro m name c s ho fragment items m' hread
    rw [fetchAll_of_opened ho (opened_eq ho).2] at hread
    cases hread
    rfl
  fetchAll_of_le := by
    intro m name c s m₂ c₂ s₂ _ ho₂ fragment items _ _
    exact ⟨_, fetchAll_of_opened ho₂ (opened_eq ho₂).2 fragment⟩
  eraseWhere_ok := by
    intro m name c s ho fragment m' herase
    obtain ⟨rfl, hname⟩ := opened_eq ho
    have hs : Keyed.get? s.definition.name m.classes = some s := by rw [hname]; exact ho.held
    have hchanged := changed_of_changing hs herase
    rw [hname] at hchanged
    exact hchanged
  eraseIds_ok := by
    intro m name c s ho ids m' herase
    obtain ⟨rfl, -⟩ := opened_eq ho
    exact changed_of_deleteAll ho.held herase
  selects_nil _ _ := rfl
  selects_of_mem := by
    intro m name s hm hs o ho ids hid
    exact List.any_eq_true.2 ⟨_, hid, decide_eq_true ((hm name s hs).keyed o ho)⟩

/-- A removal of the ids of stored items selects no other object: one UUID is that
of one object. -/
theorem mem_of_selects (hs : s.Faithful name) {items : List Item}
    (hitems : items ⊆ storage.items s) {o : Object} (ho : o ∈ s.objects)
    (h : storage.selects s (items.map (·.id)) o = true) :
    (storage.itemOf s o).id ∈ items.map (·.id) := by
  obtain ⟨id, hid, heq⟩ := List.any_eq_true.1 h
  obtain ⟨item, hitem, rfl⟩ := List.mem_map.1 hid
  obtain ⟨o', ho', rfl⟩ := List.mem_map.1 (hitems hitem)
  have hkey : o'.id = o.id := (hs.keyed o' ho').symm.trans (of_decide_eq_true heq)
  obtain rfl := List.inj_on_of_nodup_map hs.distinct ho' ho hkey
  exact hid

end Weaviate

end VectorBridge
