import Mathlib.Data.List.Nodup
import VectorBridge.Proofs.Family.Storage
import VectorBridge.Proofs.Identifier
import VectorBridge.Proofs.Uuid
import VectorBridge.Qdrant.Store
/-!
# Points of a Qdrant server

Points stand in the order of their ids, which are the UUIDs of the ids of their
items. A page ends with the id of the point after it, and the next page begins
at that id: since ids ascend, what it skips is what has been read.
-/

namespace VectorBridge

namespace Qdrant

/-- The collections of a server. -/
def storage : Storage Memory Stored (Uuid × Point) PointFilter where
  serverName := id
  held? m name := Keyed.get? name m.collections
  rows := Stored.points
  withRows s points := { s with points }
  itemOf _ e := e.2.toItem
  holds f e := f.holds e.2.payload
  selects _ ids e := (ids.map fun id => (uuidKey id).1).contains e.1

/-- The points stand in order under their ids, which are the UUIDs of their
items' ids. -/
structure Stored.Faithful (s : Stored) : Prop where
  ascending : s.points.Ascending
  keyed : ∀ e ∈ s.points, e.2.id = e.1
  mapped : ∀ e ∈ s.points, (uuidKey e.2.toItem.id).1 = e.1

/-- The points stand in order under their ids. -/
structure Stored.Ordered (s : Stored) : Prop where
  ascending : s.points.Ascending
  keyed : ∀ e ∈ s.points, e.2.id = e.1

theorem Stored.Faithful.ordered {s : Stored} (h : s.Faithful) : s.Ordered :=
  ⟨h.ascending, h.keyed⟩

/-- Every collection is faithful. -/
def Memory.Faithful (m : Memory) : Prop :=
  ∀ name s, Keyed.get? name m.collections = some s → s.Faithful

variable {m m' : Memory} {name : String} {s : Stored}

theorem Memory.Faithful.insert (h : m.Faithful) (name : String) (hs : s.Faithful) :
    Memory.Faithful ⟨Keyed.insert name s m.collections⟩ :=
  Keyed.forall_insert h hs

theorem Memory.Faithful.erase (h : m.Faithful) (name : String) :
    Memory.Faithful ⟨Keyed.erase name m.collections⟩ :=
  Keyed.forall_erase h name

theorem Stored.Faithful.filter (h : s.Faithful) (p : Uuid × Point → Bool) :
    Stored.Faithful { s with points := s.points.filter p } where
  ascending := h.ascending.filter p
  keyed e he := h.keyed e (List.mem_filter.1 he).1
  mapped e he := h.mapped e (List.mem_filter.1 he).1

theorem Stored.Ordered.filter (h : s.Ordered) (p : Uuid × Point → Bool) :
    Stored.Ordered { s with points := s.points.filter p } where
  ascending := h.ascending.filter p
  keyed e he := h.keyed e (List.mem_filter.1 he).1

/-- Points put under their ids stand in order. -/
theorem Stored.Ordered.upsert (h : s.Ordered) (points : List Point) :
    Stored.Ordered { s with
      points := points.foldl (fun m p => Keyed.insert p.id p m) s.points } := by
  induction points generalizing s with
  | nil => exact h
  | cons p points ih =>
    refine ih (s := { s with points := Keyed.insert p.id p s.points })
      ⟨h.ascending.insert _ _, fun e he => ?_⟩
    rcases Keyed.mem_of_mem_insert he with rfl | he
    · rfl
    · exact h.keyed e he

/-! ## Writing -/

/-- The point of an item is read under the item's id exactly when the id survives. -/
theorem toItem_ofItem_id_iff (item : Item) :
    (Point.ofItem item).toItem.id = item.id ↔ item.IdSurvives (uuidKey item.id).2 := by
  have hne : documentKey ≠ givenIdKey := by decide
  exact Item.recover_folded_id_iff hne

theorem toItem_ofItem_id {item : Item} (h : Metadata.Plain item.metadata) :
    (Point.ofItem item).toItem.id = item.id :=
  (toItem_ofItem_id_iff item).2 (Item.idSurvives_of_plain h _)

theorem Stored.Faithful.upsert {items : List Item} (h : s.Faithful)
    (hplain : ∀ item ∈ items, Metadata.Plain item.metadata) :
    Stored.Faithful { s with
      points := (items.map Point.ofItem).foldl (fun m p => Keyed.insert p.id p m) s.points } := by
  induction items generalizing s with
  | nil => exact h
  | cons item items ih =>
    rw [List.forall_mem_cons] at hplain
    refine ih (s := { s with
      points := Keyed.insert (Point.ofItem item).id (Point.ofItem item) s.points })
      ⟨h.ascending.insert _ _, fun e he => ?_, fun e he => ?_⟩ hplain.2
    · rcases Keyed.mem_of_mem_insert he with rfl | he
      · rfl
      · exact h.keyed e he
    · rcases Keyed.mem_of_mem_insert he with rfl | he
      · rw [toItem_ofItem_id hplain.1]
        rfl
      · exact h.mapped e he

/-- A change of a collection that keeps a property of it keeps the property of all. -/
theorem keeps_changing {P : Stored → Prop} {f : Stored → Except TransportError Stored}
    (name : String) (hf : ∀ s s', P s → f s = .ok s' → P s') :
    Step.Keeps (fun m => ∀ name s, Keyed.get? name m.collections = some s → P s)
      (Memory.changing name f) := by
  intro m hm
  unfold Memory.changing Memory.find?
  cases hget : Keyed.get? name m.collections with
  | none => exact hm
  | some s =>
    simp only
    cases hfs : f s with
    | error e => exact hm
    | ok s' => exact Keyed.forall_insert hm (hf s s' (hm name s hget) hfs)

/-- A change of a collection that is there fails, or puts what it makes of it. -/
theorem changing_of_error {f : Stored → Except TransportError Stored} {e : TransportError}
    (hs : Keyed.get? name m.collections = some s) (hf : f s = .error e) :
    Memory.changing name f m = (.error e, m) := by
  simp only [Memory.changing, Memory.find?, hs, hf]

theorem changing_of_ok {f : Stored → Except TransportError Stored} {s' : Stored}
    (hs : Keyed.get? name m.collections = some s) (hf : f s = .ok s') :
    Memory.changing name f m = (.ok (), ⟨Keyed.insert name s' m.collections⟩) := by
  simp only [Memory.changing, Memory.find?, hs, hf]

theorem changed_insert (m : Memory) (name : String) (s : Stored) :
    storage.Changed m ⟨Keyed.insert name s m.collections⟩ name s :=
  ⟨Keyed.get?_insert_self _ _ _, fun _ hne => Keyed.get?_insert_of_ne hne.symm _ _⟩

/-- What a change of a collection does when it succeeds. -/
theorem changed_of_changing {f : Stored → Stored} (hs : Keyed.get? name m.collections = some s)
    (h : Memory.changing name (fun s => .ok (f s)) m = (.ok (), m')) :
    storage.Changed m m' name (f s) := by
  rw [changing_of_ok (f := fun s => .ok (f s)) hs rfl] at h
  cases h
  exact changed_insert _ _ _

/-! ## The questions of the family -/

theorem leaves_reading {α : Type} (name : String) (f : Stored → α) :
    Step.Leaves (Memory.reading name f) := fun _ => rfl

theorem readsOnly : family.ReadsOnly where
  ping := Step.leaves_pure ()
  names _ := rfl
  count _ := leaves_reading _ _
  attach _ := Step.leaves_pure _
  inspect _ := leaves_reading _ _
  declaredWidth _ := leaves_reading _ _
  probedWidth _ := leaves_reading _ _
  fetch _ _ := (leaves_reading _ _).bind fun _ => Step.leaves_pure _
  sample _ _ := leaves_reading _ _
  fetchAll _ _ m := Session.toAction_snd _ m
  readPage _ _ _ := Step.Leaves.bind (fun _ => rfl) fun _ =>
    Step.Leaves.bind (fun m => Session.toAction_snd _ m) fun _ => Step.leaves_pure _
  size _ := leaves_reading _ _
  nearest _ _ _ _ _ := leaves_reading _ _

theorem guards : family.Guards Memory.Faithful Metadata.Plain where
  create _ name width metric m hm := by
    show Memory.Faithful (Memory.create name width (.ofMetric metric) m).2
    unfold Memory.create
    split
    · exact hm
    · exact hm.insert name ⟨List.Pairwise.nil, by simp, by simp⟩
  drop name m hm := by
    show Memory.Faithful (Memory.drop name m).2
    unfold Memory.drop
    split
    · exact hm
    · exact hm.erase name
  eraseIds name ids := by
    refine keeps_changing name fun s s' hs h => ?_
    cases h
    rw [Keyed.foldl_erase]
    exact hs.filter _
  eraseWhere name f := keeps_changing name fun s s' hs h => by cases h; exact hs.filter _
  write {name m h items} hm _ _ hplain := by
    refine Step.keeps_bind_at hm fun _ m₁ hrun => ?_
    obtain ⟨-, rfl⟩ := Prod.mk.inj hrun
    show Memory.Faithful (Call.toAction _ m).2
    rw [Session.toAction_snd]
    refine keeps_changing h (fun s s' hs hok => ?_) m hm
    split at hok
    · cases hok
    · cases hok
      exact hs.upsert hplain
  plain_fetch _ _ hfetch item hitem := by
    obtain ⟨points, m₁, -, hpure⟩ := Step.bind_eq_ok_iff.1 hfetch
    cases hpure
    obtain ⟨p, -, rfl⟩ := List.mem_map.1 hitem
    exact IdKind.plain_recover _ _

/-! ## Servers with any metadata -/

/-- Every collection is ordered. -/
def Memory.Ordered (m : Memory) : Prop :=
  ∀ name s, Keyed.get? name m.collections = some s → s.Ordered

/-- A write keeps what putting points keeps. -/
theorem keeps_write {J : Memory → Prop} {name : String}
    (h : ∀ points, Step.Keeps J (Memory.upsert name points)) (items : List Item) :
    Step.Keeps J (family.write name items) :=
  Step.Keeps.bind (fun _ hm => hm) fun _ m hm => by
    rw [Session.toAction_snd]
    exact h _ m hm

theorem ordered_upsert (name : String) (points : List Point) :
    Step.Keeps Memory.Ordered (Memory.upsert name points) := by
  refine keeps_changing name fun s s' hs hput => ?_
  split at hput
  · cases hput
  · cases hput
    exact hs.upsert points

theorem ordered_erase (name : String) (ids : List Uuid) :
    Step.Keeps Memory.Ordered (Memory.erase name ids) := by
  refine keeps_changing name fun s s' hs hput => ?_
  cases hput
  rw [Keyed.foldl_erase]
  exact hs.filter _

theorem ordered_eraseWhere (name : String) (f : PointFilter) :
    Step.Keeps Memory.Ordered (Memory.eraseWhere name f) :=
  keeps_changing name fun s s' hs hput => by cases hput; exact hs.filter _

/-- Collections are ordered whatever is put there. -/
theorem guards_ordered : family.Guards Memory.Ordered fun _ => True where
  create _ name width metric m hm := by
    show Memory.Ordered (Memory.create name width (.ofMetric metric) m).2
    unfold Memory.create
    split
    · exact hm
    · exact Keyed.forall_insert hm ⟨List.Pairwise.nil, fun _ he => absurd he List.not_mem_nil⟩
  drop name m hm := by
    show Memory.Ordered (Memory.drop name m).2
    unfold Memory.drop
    split
    · exact hm
    · exact Keyed.forall_erase hm name
  eraseIds name _ := ordered_erase name _
  eraseWhere := ordered_eraseWhere
  write hm _ _ _ := keeps_write (ordered_upsert _) _ _ hm
  plain_fetch _ _ _ _ _ := trivial

/-! ## Reading by cursor -/

/-- A token stands where the rest of what is found begins. -/
def Marks (found : List Point) (token : Option PageToken) (rest : List Point) : Prop :=
  ∀ size, ∃ start, start? ⟨token, size⟩ = .ok start ∧
    (found.filter fun p => startsBefore start p.id) = rest

theorem marks_none (found : List Point) : Marks found none found := fun _ =>
  ⟨none, rfl, List.filter_eq_self.2 fun _ _ => rfl⟩

/-- The text of a UUID is a cursor to read on from it. -/
theorem start?_cursor (u : Uuid) (size : Nat) :
    start? ⟨some (.cursor (BackendId.uuid u).text), size⟩ = .ok (some (.uuid u)) := by
  have hcursor : cursor? (BackendId.uuid u).text = .ok (.uuid u) := by
    rw [cursor?, show Uuid.parse? (BackendId.uuid u).text = some u from Uuid.parse?_text u]
  simp only [start?, PageRequest.cursor, hcursor]
  rfl

/-- The id of a point marks the place of the point, where ids ascend. -/
theorem marks_cursor {found seen rest : List Point} {p : Point}
    (hfound : found.Pairwise fun p q => p.id < q.id) (h : found = seen ++ p :: rest) :
    Marks found (some (.cursor (BackendId.uuid p.id).text)) (p :: rest) := by
  refine fun size => ⟨some (.uuid p.id), start?_cursor p.id size, ?_⟩
  subst h
  have hirrefl : ∀ u : Uuid, ¬ u < u := fun u => Std.Irrefl.irrefl u
  obtain ⟨-, hrest, hseen⟩ := List.pairwise_append.1 hfound
  rw [List.filter_append, List.filter_eq_nil_iff.2, List.nil_append, List.filter_eq_self.2]
  · intro q hq
    rcases List.mem_cons.1 hq with rfl | hq
    · simpa [startsBefore] using hirrefl q.id
    · have hlt := (List.pairwise_cons.1 hrest).1 q hq
      have hge : ¬ q.id < p.id := fun hcon => hirrefl p.id (Trans.trans hlt hcon)
      simpa [startsBefore] using hge
  · intro q hq
    simpa [startsBefore] using hseen q hq p List.mem_cons_self

/-- What is read of a collection that is there. -/
theorem reading_apply {α : Type} (hs : Keyed.get? name m.collections = some s) (f : Stored → α) :
    (Memory.reading name f).toAction m = (.ok (f s), m) := by
  refine Call.toAction_of_ok ?_
  rw [Memory.reading, Call.read_apply, Memory.find?, hs]
  rfl

theorem reading_eq_ok {α : Type} {f : Stored → α} {a : α}
    (h : (Memory.reading name f).toAction m = (.ok a, m')) :
    ∃ s, storage.held? m (storage.serverName name) = some s := by
  have hread := Call.toAction_eq_ok_iff.1 h
  show ∃ s, Keyed.get? name m.collections = some s
  cases hs : Keyed.get? name m.collections with
  | none =>
    simp only [Memory.reading, Call.read_apply, Memory.find?, hs, Except.map] at hread
    cases hread
  | some s => exact ⟨s, rfl⟩

/-- A page is the beginning of what is left, and marks the point after it. -/
theorem readPage_of_marks {filter : Option PointFilter} {token : Option PageToken}
    {rest : List Point} (hs : Keyed.get? name m.collections = some s)
    (hmarks : Marks (s.passing filter) token rest) (size : Nat) :
    family.readPage name filter ⟨token, size⟩ m =
      (.ok ⟨(rest.take size).map Point.toItem,
        (rest.drop size).head?.map fun p => .cursor (BackendId.uuid p.id).text⟩, m) := by
  obtain ⟨start, hstart, hrest⟩ := hmarks size
  show (Action.ofResult (start? ⟨token, size⟩) >>= fun start =>
    (Memory.reading name fun s => s.scroll filter start size).toAction >>= fun scroll =>
      pure (Page.ofCursor (scroll.points.map Point.toItem) (scroll.next.map BackendId.text)) :
    Action Memory (Page Item)) m = _
  rw [hstart, Step.bind_of_ok (Action.ofResult_apply _ m), Step.bind_of_ok (reading_apply hs _)]
  simp only [Stored.scroll, hrest, Page.ofCursor, Option.map_map]
  rfl

/-- **A drain by cursor reads all that is left.** -/
theorem drains_eq_rest {filter : Option PointFilter} {token : Option PageToken} {sizes : List Nat}
    {items : List Item} (hs : Keyed.get? name m.collections = some s)
    (hfound : (s.passing filter).Pairwise fun p q => p.id < q.id)
    (h : Drains (family.readPage name filter) token sizes m items m') {seen rest : List Point}
    (hsplit : s.passing filter = seen ++ rest) (hmarks : Marks (s.passing filter) token rest) :
    items = rest.map Point.toItem := by
  induction h generalizing seen rest with
  | @last token size m m' page hpage hnext =>
    rw [readPage_of_marks hs hmarks] at hpage
    cases hpage
    rw [Option.map_eq_none_iff, List.head?_eq_none_iff, List.drop_eq_nil_iff] at hnext
    rw [List.take_of_length_le hnext]
  | @more token size m m₁ m' page next sizes items hpage hnext _ ih =>
    rw [readPage_of_marks hs hmarks] at hpage
    cases hpage
    obtain ⟨p, hp, rfl⟩ := Option.map_eq_some_iff.1 hnext
    obtain ⟨tail, htail⟩ : ∃ tail, rest.drop size = p :: tail := by
      cases hdrop : rest.drop size with
      | nil => rw [hdrop] at hp; cases hp
      | cons q tail =>
        rw [hdrop] at hp
        cases hp
        exact ⟨tail, rfl⟩
    have hsplit' : s.passing filter = (seen ++ rest.take size) ++ p :: tail := by
      rw [List.append_assoc, ← htail, List.take_append_drop, hsplit]
    rw [ih hs hsplit' (marks_cursor hfound hsplit'), ← htail, ← List.map_append,
      List.take_append_drop]

/-! ## The laws -/

theorem passing_eq (s : Stored) (filter : Option PointFilter) :
    (s.passing filter).map Point.toItem = storage.passing s filter := by
  rw [Storage.passing, Stored.passing, Keyed.values, List.filter_map, List.map_map]
  rfl

/-- What passes is in the order of ids. -/
theorem pairwise_passing (hs : s.Ordered) (filter : Option PointFilter) :
    (s.passing filter).Pairwise fun p q => p.id < q.id := by
  refine List.Pairwise.filter _ (List.pairwise_map.2 ?_)
  refine hs.ascending.imp_of_mem fun {e e'} he he' hlt => ?_
  rw [hs.keyed e he, hs.keyed e' he']
  exact hlt

/-- **The questions of the family do to the points what they are to do.** -/
theorem lawful : storage.Lawful family Memory.Faithful where
  rows_withRows _ _ := rfl
  withRows_rows _ := rfl
  itemOf_withRows _ _ := rfl
  reads := readsOnly
  held_of_readPage := by
    intro name m h hattach fragment request page m' hread
    cases hattach
    obtain ⟨start, m₁, hstart, hread⟩ := Step.bind_eq_ok_iff.1 hread
    obtain ⟨scroll, m₂, hscroll, -⟩ := Step.bind_eq_ok_iff.1 hread
    obtain ⟨-, rfl⟩ := Prod.mk.inj hstart
    exact reading_eq_ok hscroll
  held_of_fetchAll := by
    intro name m h hattach fragment items m' hread
    cases hattach
    exact reading_eq_ok hread
  attach_of_held _ := ⟨_, rfl⟩
  nodup := by
    intro m name s hm hs
    have hfaithful := hm name s hs
    -- items of one id would be points of one UUID
    refine List.Nodup.of_map (fun id => (uuidKey id).1) ?_
    rw [Storage.items, List.map_map, List.map_map]
    have hkeys : (storage.rows s).map (fun e => (uuidKey (storage.itemOf s e).id).1) =
        Keyed.keys s.points := List.map_congr_left hfaithful.mapped
    exact hkeys ▸ hfaithful.ascending.nodup_keys
  drains_readPage := by
    intro m name h s ho fragment sizes items m' hdrain
    cases ho.attach
    have hs : Keyed.get? name m.collections = some s := ho.held
    rw [← passing_eq]
    have hsplit : s.passing fragment = [] ++ s.passing fragment := rfl
    exact drains_eq_rest hs (pairwise_passing (ho.inv name s hs).ordered fragment) hdrain hsplit
      (marks_none _)
  readPage_of_nil := by
    intro m name h s ho fragment hnone
    cases ho.attach
    rw [← passing_eq, List.map_eq_nil_iff] at hnone
    have hs : Keyed.get? name m.collections = some s := ho.held
    have hread := readPage_of_marks hs (marks_none (s.passing fragment)) 1
    rw [hnone] at hread
    exact hread
  fetchAll_eq := by
    intro m name h s ho fragment items m' hread
    cases ho.attach
    have hs : Keyed.get? name m.collections = some s := ho.held
    obtain ⟨hitems, -⟩ := Prod.mk.inj ((reading_apply hs _).symm.trans hread)
    rw [← Except.ok.inj hitems]
    exact passing_eq s fragment
  fetchAll_of_le := by
    intro m name h s m₂ h₂ s₂ _ ho₂ fragment items _ _
    cases ho₂.attach
    have hs₂ : Keyed.get? name m₂.collections = some s₂ := ho₂.held
    exact ⟨_, reading_apply hs₂ _⟩
  eraseWhere_ok := by
    intro m name h s ho fragment m' herase
    cases ho.attach
    exact changed_of_changing ho.held herase
  eraseIds_ok := by
    intro m name h s ho ids m' herase
    cases ho.attach
    have hchanged := changed_of_changing ho.held herase
    rw [Keyed.foldl_erase] at hchanged
    exact hchanged
  selects_nil _ _ := rfl
  selects_of_mem := by
    intro m name s hm hs e he ids hid
    refine List.contains_iff_mem.2 ?_
    rw [← (hm name s hs).mapped e he]
    exact List.mem_map_of_mem hid

/-- A removal of the ids of stored items selects no other point: one UUID is that
of one point. -/
theorem mem_of_selects (hs : s.Faithful) {items : List Item} (hitems : items ⊆ storage.items s)
    {e : Uuid × Point} (he : e ∈ s.points) (h : storage.selects s (items.map (·.id)) e = true) :
    (storage.itemOf s e).id ∈ items.map (·.id) := by
  obtain ⟨id, hid, heq⟩ := List.mem_map.1 (List.contains_iff_mem.1 h)
  obtain ⟨item, hitem, rfl⟩ := List.mem_map.1 hid
  obtain ⟨e', he', rfl⟩ := List.mem_map.1 (hitems hitem)
  have hkey : e'.1 = e.1 := (hs.mapped e' he').symm.trans heq
  obtain rfl := List.inj_on_of_nodup_map hs.ascending.nodup_keys he' he hkey
  exact hid

end Qdrant

end VectorBridge
