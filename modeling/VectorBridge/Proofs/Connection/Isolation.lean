import VectorBridge.Proofs.Columnar.Isolation
import VectorBridge.Proofs.Connection.Again
import VectorBridge.Proofs.Connection.Freshness
/-!
# Collections are isolated

On the servers in memory a collection is seen under its name, and every question about it is
about what is seen there. So no call about one collection shows in what the calls about another
answer, whatever is remembered of widths, held of listings, and numbered by the server.
-/

namespace VectorBridge

open Session

namespace Qdrant

/-- What is seen of a collection. -/
def seen (m : Memory) (name : String) : Option Stored := Keyed.get? name m.collections

theorem local_reading {α : Type} (name : String) (f : Stored → α) :
    Local seen name (Memory.reading name f) :=
  local_read fun m m' h => by
    have h : Keyed.get? name m.collections = Keyed.get? name m'.collections := h
    rw [Memory.find?, Memory.find?, h]

theorem local_changing (name : String) (f : Stored → Except TransportError Stored) :
    Local seen name (Memory.changing name f) := by
  refine local_of_entry
    (·.elim (.error (.missing s!"collection '{name}'")) fun s => (f s).map some) Memory.mk
    (fun _ => rfl) fun m => ?_
  simp only [Memory.changing, Memory.find?]
  cases Keyed.get? name m.collections with
  | none => rfl
  | some s =>
    simp only [Option.elim]
    cases f s <;> rfl

theorem local_create (name : String) (width : Nat) (distance : Distance) :
    Local seen name (Memory.create name width distance) := by
  refine local_of_entry
    (·.elim (.ok (some ⟨width, distance, []⟩)) fun _ =>
      .error (.status 409 s!"Collection `{name}` already exists!")) Memory.mk
    (fun _ => rfl) fun m => ?_
  simp only [Memory.create, Keyed.hasKey_eq_isSome]
  cases Keyed.get? name m.collections <;> rfl

theorem local_drop (name : String) : Local seen name (Memory.drop name) := by
  refine local_of_entry
    (·.elim (.error (.missing s!"collection '{name}'")) fun _ => .ok none) Memory.mk
    (fun _ => rfl) fun m => ?_
  simp only [Memory.drop, Memory.find?]
  cases Keyed.get? name m.collections <;> rfl

theorem isLocal : family.IsLocal seen where
  reads := readsOnly
  attach_of_inspect := by
    intro m name h scoring hinspect
    simp only [family, Memory.reading, Call.read_apply, Memory.find?] at hinspect
    cases hs : Keyed.get? name m.collections <;> rw [hs] at hinspect <;> cases hinspect
    rfl
  named h := by cases h; rfl
  attach _ := local_pure _
  inspect name := local_reading name _
  count name := local_reading name _
  create _ name width metric := local_create name width _
  drop := local_drop
  declaredWidth name := local_reading name _
  probedWidth name := local_reading name _
  fetch name _ := (local_reading name _).bind fun _ => local_pure _
  sample name _ := local_reading name _
  fetchAll name _ := (local_reading name _).toAction
  readPage name _ _ := (local_ofResult _).bind fun _ =>
    (local_reading name _).toAction.bind fun _ => local_pure _
  size name := local_reading name _
  nearest name _ _ _ _ := local_reading name _
  write name items := (local_ofResult _).bind fun _ => (local_changing name _).toAction
  eraseIds name _ := local_changing name _
  eraseWhere name _ := local_changing name _

end Qdrant

namespace Postgres

/-- What is seen of a table. -/
def seen (m : Memory) (name : String) : Option Table := Keyed.get? name m.tables

theorem local_reading {α : Type} (name : String) (f : Table → α) :
    Local seen name (Memory.reading name f) :=
  local_read fun m m' h => by
    have h : Keyed.get? name m.tables = Keyed.get? name m'.tables := h
    rw [Memory.find?, Memory.find?, h]

theorem local_changing (name : String) (f : Table → Except TransportError Table) :
    Local seen name (Memory.changing name f) := by
  refine local_of_entry
    (·.elim (.error (.missing s!"table '{name}'")) fun t => (f t).map some) Memory.mk
    (fun _ => rfl) fun m => ?_
  simp only [Memory.changing, Memory.find?]
  cases Keyed.get? name m.tables with
  | none => rfl
  | some t =>
    simp only [Option.elim]
    cases f t <;> rfl

theorem local_create (name : String) (width : Nat) (metric : Metric) :
    Local seen name (Memory.create name width metric) := by
  refine local_of_entry
    (·.elim (.ok (some ⟨width, metric, []⟩)) fun _ =>
      .error (.api 0 s!"relation \"{name}\" already exists")) Memory.mk (fun _ => rfl) fun m => ?_
  simp only [Memory.create, Keyed.hasKey_eq_isSome]
  cases Keyed.get? name m.tables <;> rfl

theorem local_drop (name : String) : Local seen name (Memory.drop name) := by
  refine local_of_entry
    (·.elim (.error (.missing s!"table '{name}'")) fun _ => .ok none) Memory.mk
    (fun _ => rfl) fun m => ?_
  simp only [Memory.drop, Memory.find?]
  cases Keyed.get? name m.tables <;> rfl

theorem isLocal : family.IsLocal seen where
  reads := readsOnly
  attach_of_inspect := by
    intro m name h scoring hinspect
    simp only [family, Memory.reading, Call.read_apply, Memory.find?] at hinspect
    cases hs : Keyed.get? name m.tables <;> rw [hs] at hinspect <;> cases hinspect
    rfl
  named h := by cases h; rfl
  attach _ := local_pure _
  inspect name := local_reading name _
  count name := local_reading name _
  create _ := local_create
  drop := local_drop
  declaredWidth name := local_reading name _
  probedWidth name := local_reading name _
  fetch name _ := (local_reading name _).bind fun _ => local_pure _
  sample name _ := local_reading name _
  fetchAll name _ := (local_reading name _).toAction
  readPage name _ _ := (local_ofResult _).bind fun _ =>
    (local_reading name _).toAction.bind fun _ => local_ofResult _
  size name := local_reading name _
  nearest name _ _ _ _ := local_reading name _
  write name items := (local_changing name _).toAction
  eraseIds name _ := local_changing name _
  eraseWhere name _ := local_changing name _

end Postgres

namespace Milvus

/-- What is seen of a collection. -/
def seen (m : Memory) (name : String) : Option Stored := Keyed.get? name m.collections

theorem local_reading {α : Type} (name : String) (f : Stored → α) :
    Local seen name (Memory.reading name f) :=
  local_read fun m m' h => by
    have h : Keyed.get? name m.collections = Keyed.get? name m'.collections := h
    rw [Memory.find?, Memory.find?, h]

theorem local_changing (name : String) (f : Stored → Except TransportError Stored) :
    Local seen name (Memory.changing name f) := by
  refine local_of_entry
    (·.elim (.error (.missing s!"collection '{name}'")) fun s => (f s).map some) Memory.mk
    (fun _ => rfl) fun m => ?_
  simp only [Memory.changing, Memory.find?]
  cases Keyed.get? name m.collections with
  | none => rfl
  | some s =>
    simp only [Option.elim]
    cases f s <;> rfl

theorem local_create (name : String) (width : Nat) (metric : Metric) :
    Local seen name (Memory.create name width metric) := by
  refine local_of_entry
    (·.elim (.ok (some ⟨{ Schema.plain with dimension := some width, metric }, []⟩)) fun _ =>
      .error (.api 65535 s!"collection {name} already exists")) Memory.mk (fun _ => rfl) fun m => ?_
  simp only [Memory.create, Keyed.hasKey_eq_isSome]
  cases Keyed.get? name m.collections <;> rfl

theorem local_drop (name : String) : Local seen name (Server.drop (τ := Memory) name) :=
  local_of_entry (fun _ => .ok none) Memory.mk (fun _ => rfl) fun _ => rfl

theorem local_query (name : String) (filter : Option Expr) (offset limit : Nat) :
    Local seen name (Server.query (τ := Memory) name filter offset limit) := by
  show Local seen name (Memory.query name filter offset limit)
  unfold Memory.query
  split
  · exact local_throw _
  · exact local_reading name _

theorem local_openCollection (name : String) :
    Local seen name (openCollection (τ := Memory) name) :=
  (local_reading name _).bind fun _ => local_pure _

theorem local_selectAll (c : Opened) (limit : Nat) (selectors : List Expr) :
    Local seen c.name (selectAll (τ := Memory) c limit selectors) := by
  induction selectors with
  | nil => exact local_pure _
  | cons e rest ih =>
    exact (local_query _ _ _ _).bind fun _ => ih.bind fun _ => local_pure _

theorem local_deleteAll (c : Opened) (selectors : List Expr) :
    Local seen c.name (deleteAll (τ := Memory) c selectors) := by
  induction selectors with
  | nil => exact local_pure _
  | cons e rest ih => exact (local_changing _ _).bind fun _ => ih

theorem local_searchAll (c : Opened) (limit : Nat) (filter : Option Expr)
    (vectors : List Embedding) :
    Local seen c.name (searchAll (τ := Memory) c limit filter vectors) := by
  induction vectors with
  | nil => exact local_pure _
  | cons v rest ih =>
    exact (local_reading _ _).bind fun _ => ih.bind fun _ => local_pure _

theorem local_owners (c : Opened) (selector : Expr) (limit : Nat) :
    Local seen c.name (owners (τ := Memory) c selector limit) :=
  (local_query _ _ _ _).bind fun _ => local_pure _

theorem local_ownersOfAll (c : Opened) (limit : Nat) (selectors : List Expr) :
    Local seen c.name (ownersOfAll (τ := Memory) c limit selectors) := by
  induction selectors with
  | nil => exact local_pure _
  | cons e rest ih =>
    exact (local_owners _ _ _).bind fun _ => ih.bind fun _ => local_pure _

theorem local_assignKeys (c : Opened) (items : List Item) :
    Local seen c.name (assignKeys (τ := Memory) c items) := by
  refine (local_ofResult _).bind fun mapped => ?_
  split
  · exact local_pure _
  · refine (local_ownersOfAll _ _ _).toAction.bind fun held => ?_
    simp only
    split
    · exact local_throw _
    · refine (local_owners _ _ _).toAction.bind fun holders => ?_
      split
      · exact local_throw _
      · exact local_pure _

theorem local_readFrom (c : Opened) (filter : Option Expr) (offset : Nat) :
    Local seen c.name (readFrom (τ := Memory) c filter offset) := by
  -- every batch but the last brings the offset nearer to the window
  induction hleft : window - offset using Nat.strongRecOn generalizing offset with
  | _ left ih =>
    rw [readFrom]
    split
    · rename_i hlt
      have hbatch : 0 < batchSize := by decide
      refine (local_query _ _ _ _).toAction.bind fun rows => ?_
      simp only
      split
      · exact local_pure _
      · rename_i hfull
        exact (ih (window - (offset + rows.length)) (by omega) _ rfl).bind fun _ => local_pure _
    · exact local_throw _

theorem isLocal : (family (τ := Memory)).IsLocal seen where
  reads := readsOnly
  attach_of_inspect := by
    intro m name h scoring hinspect
    obtain ⟨c, m₁, hopen, hpure⟩ := Step.bind_eq_ok_iff.1 hinspect
    cases hpure
    exact hopen
  named h := by
    obtain ⟨s, -, rfl⟩ := attach_eq_ok h
    rfl
  attach := local_openCollection
  inspect name := (local_openCollection name).bind fun _ => local_pure _
  count name := local_reading name _
  create _ := local_create
  drop name := (local_openCollection name).bind fun _ => local_drop name
  declaredWidth c := (local_reading c.name _).bind fun _ => local_pure _
  probedWidth c := (local_reading c.name _).bind fun _ =>
    (local_query c.name _ _ _).bind fun _ => local_pure _
  fetch c _ := (local_selectAll c _ _).bind fun _ => local_pure _
  sample c _ := (local_query c.name _ _ _).bind fun _ => local_pure _
  fetchAll c filter := local_readFrom c filter 0
  readPage c filter request := by
    refine (local_ofResult _).bind fun offset => ?_
    split
    · exact local_throw _
    · exact (local_query c.name _ _ _).toAction.bind fun _ => local_ofResult _
  size c := local_reading c.name _
  nearest c _ _ _ vectors := local_searchAll c _ _ vectors
  write c items := (local_assignKeys c items).bind fun _ => (local_ofResult _).bind fun _ =>
    (local_changing c.name _).toAction
  eraseIds c _ := local_deleteAll c _
  eraseWhere c _ := local_changing c.name _

end Milvus

namespace Chroma

/-- A collection without the id that it was given. -/
def Stored.unnumbered (s : Stored) : Stored := { s with info := { s.info with id := "" } }

/-- What is seen of a collection. Its id is not: it tells how many collections there were
before. -/
def seen (m : Memory) (name : String) : Option Stored :=
  (Keyed.get? name m.collections).map Stored.unnumbered

variable {m m' : Memory} {name : String} {h h' : Info}

/-- A collection is there on both servers or on none. -/
theorem seen_cases (hsame : seen m name = seen m' name) :
    (Keyed.get? name m.collections = none ∧ Keyed.get? name m'.collections = none) ∨
      ∃ s s', Keyed.get? name m.collections = some s ∧ Keyed.get? name m'.collections = some s' ∧
        s.unnumbered = s'.unnumbered := by
  unfold seen at hsame
  cases hs : Keyed.get? name m.collections with
  | none =>
    rw [hs] at hsame
    exact .inl ⟨rfl, Option.map_eq_none_iff.1 hsame.symm⟩
  | some s =>
    rw [hs] at hsame
    obtain ⟨s', hs', heq⟩ := Option.map_eq_some_iff.1 hsame.symm
    exact .inr ⟨s, s', rfl, hs', heq.symm⟩

theorem find_apply (m : Memory) (name : String) :
    Server.find name m = ((m.find? name).map (·.info), m) := rfl

theorem info_of_unnumbered {s s' : Stored} (h : s.unnumbered = s'.unnumbered) :
    s.info.metadata = s'.info.metadata ∧ s.info.dimension = s'.info.dimension := by
  obtain ⟨-, -, hmetadata, hdimension⟩ := Info.mk.inj (Stored.mk.inj h).1
  exact ⟨hmetadata, hdimension⟩

/-- The same is found of a collection, but for its id. -/
theorem paired_find (hsame : seen m name = seen m' name) :
    Step.Paired (fun info info' : Info =>
        info.metadata = info'.metadata ∧ info.dimension = info'.dimension)
      (fun _ _ => True) Eq (fun _ _ => True) (Server.find name m) (Server.find name m') := by
  rw [find_apply, find_apply, Memory.find?, Memory.find?]
  rcases seen_cases hsame with ⟨hs, hs'⟩ | ⟨s, s', hs, hs', heq⟩ <;> rw [hs, hs']
  · exact .error rfl trivial
  · exact .ok (info_of_unnumbered heq) trivial

/-- The collections that are opened differ in their ids at most. -/
theorem exists_of_twin (ht : (family (τ := Memory)).Twin Memory.Numbered seen name h h' m m') :
    ∃ s s', Keyed.get? name m.collections = some s ∧ Keyed.get? name m'.collections = some s' ∧
      h = s.info ∧ h' = s'.info ∧ s.unnumbered = s'.unnumbered := by
  obtain ⟨s, hs⟩ := held_of_attach ht.attach
  obtain ⟨s', hs'⟩ := held_of_attach ht.attach'
  have hseen : (storage.held? m name).map Stored.unnumbered =
      (storage.held? m' name).map Stored.unnumbered := ht.same
  rw [show storage.held? m name = some s from hs,
    show storage.held? m' name = some s' from hs'] at hseen
  exact ⟨s, s', hs, hs', opened_info ⟨ht.inv, ht.attach, hs⟩, opened_info ⟨ht.inv', ht.attach', hs'⟩,
    Option.some.inj hseen⟩

/-- What is read of a collection does not depend on its id. -/
theorem alike_reading {α : Type} {f : Stored → α} (hf : ∀ s : Stored, f s.unnumbered = f s)
    (ht : (family (τ := Memory)).Twin Memory.Numbered seen name h h' m m') :
    Step.Alike (fun n n' => n = m ∧ n' = m') (Memory.reading h.id f m)
      (Memory.reading h'.id f m') := by
  obtain ⟨s, s', hs, hs', rfl, rfl, heq⟩ := exists_of_twin ht
  refine ⟨?_, rfl, rfl⟩
  rw [Memory.reading, Memory.reading, Call.read_apply, Call.read_apply, ht.inv.withId? hs,
    ht.inv'.withId? hs', Except.map, Except.map, ← hf s, heq, hf s']

/-- What is done to a collection does not depend on its id. -/
theorem alike_changing {f : Stored → Stored}
    (hf : ∀ s, (f s).unnumbered = f s.unnumbered)
    (ht : (family (τ := Memory)).Twin Memory.Numbered seen name h h' m m') :
    Step.Alike (Confined seen name m m') (Memory.changing h.id f m)
      (Memory.changing h'.id f m') := by
  obtain ⟨s, s', hs, hs', rfl, rfl, heq⟩ := exists_of_twin ht
  rw [Memory.changing, Memory.changing, ht.inv.withId? hs, ht.inv'.withId? hs']
  refine ⟨rfl, ?_, fun other hne => ?_, fun other hne => ?_⟩
  · simp only [seen, ht.inv.named _ _ hs, ht.inv'.named _ _ hs', Keyed.get?_insert_self,
      Option.map_some, hf, heq]
  · simp only [seen, ht.inv.named _ _ hs, Keyed.get?_insert_of_ne hne.symm]
  · simp only [seen, ht.inv'.named _ _ hs', Keyed.get?_insert_of_ne hne.symm]

theorem unnumbered_foldl_write (items : List Item) (s : Stored) :
    (items.foldl Stored.write s).unnumbered = items.foldl Stored.write s.unnumbered := by
  induction items generalizing s with
  | nil => rfl
  | cons item items ih => exact ih (s.write item)

theorem confines : (family (τ := Memory)).Confines Memory.Numbered seen where
  reads := readsOnly
  attach _ _ hsame := (paired_find hsame).imp (fun _ _ _ => trivial) fun _ _ h => h
  inspect _ _ hsame := (paired_find hsame).then_pure fun info info' hinfo => by
    rw [hinfo.1, hinfo.2]
  attach_of_inspect := by
    intro m name h scoring hinspect
    obtain ⟨c, m₁, hopen, hpure⟩ := Step.bind_eq_ok_iff.1 hinspect
    cases hpure
    exact hopen
  named {m name h} hm hattach := by
    obtain ⟨s, hs⟩ := held_of_attach hattach
    obtain rfl := opened_info ⟨hm, hattach, hs⟩
    exact hm.named _ _ hs
  count {m m' name} hm hm' hsame := by
    have hcount : ∀ {m : Memory}, m.Numbered → (family (τ := Memory)).count name m =
        ((m.find? name).map fun s => s.records.length, m) := by
      intro m hm
      refine (Step.bind_apply _ _ m).trans ?_
      rw [find_apply, Memory.find?]
      cases hs : Keyed.get? name m.collections with
      | none => rfl
      | some s =>
        show Memory.reading s.info.id _ m = _
        rw [Memory.reading, Call.read_apply, hm.withId? hs]
    rw [hcount hm, hcount hm', Memory.find?, Memory.find?]
    rcases seen_cases hsame with ⟨hs, hs'⟩ | ⟨s, s', hs, hs', heq⟩ <;> rw [hs, hs']
    exact congrArg (fun records : List Item => Except.ok records.length) (Stored.mk.inj heq).2
  create {m m' name} _ _ hsame c width metric := by
    have hcreate : ∀ m : Memory, (family (τ := Memory)).create c name width metric m =
        (.ok (), (Memory.create name (newMetadata c name metric) m).2) := by
      intro m
      refine (Step.bind_apply _ _ m).trans ?_
      simp only [Server.create, Memory.create]
      cases Keyed.get? name m.collections <;> rfl
    rw [hcreate, hcreate, Memory.create, Memory.create]
    rcases seen_cases hsame with ⟨hs, hs'⟩ | ⟨s, s', hs, hs', -⟩ <;> rw [hs, hs']
    · refine ⟨rfl, ?_, fun other hne => ?_, fun other hne => ?_⟩
      · simp only [seen, Keyed.get?_insert_self, Option.map_some, Stored.unnumbered]
      · simp only [seen, Keyed.get?_insert_of_ne hne.symm]
      · simp only [seen, Keyed.get?_insert_of_ne hne.symm]
    · exact ⟨rfl, .rfl hsame⟩
  drop {m m' name} _ _ hsame := by
    show Step.Alike _ (Memory.drop name m) (Memory.drop name m')
    unfold Memory.drop Memory.find?
    rcases seen_cases hsame with ⟨hs, hs'⟩ | ⟨s, s', hs, hs', -⟩ <;> rw [hs, hs']
    · exact ⟨rfl, .rfl hsame⟩
    · refine ⟨rfl, ?_, fun other hne => ?_, fun other hne => ?_⟩
      · simp only [seen, Keyed.get?_erase_self]
      · simp only [seen, Keyed.get?_erase_of_ne hne.symm]
      · simp only [seen, Keyed.get?_erase_of_ne hne.symm]
  metadataOf ht := by
    obtain ⟨s, s', -, -, rfl, rfl, heq⟩ := exists_of_twin ht
    exact (info_of_unnumbered heq).1
  declaredWidth ht := by
    obtain ⟨s, s', -, -, rfl, rfl, heq⟩ := exists_of_twin ht
    exact congrArg Except.ok (info_of_unnumbered heq).2
  probedWidth ht := ((alike_reading (fun _ => rfl) ht).then_pure _).1
  fetch ht _ := (alike_reading (fun _ => rfl) ht).1
  sample ht _ := (alike_reading (fun _ => rfl) ht).1
  fetchAll ht _ := toAction_fst (alike_reading (fun _ => rfl) ht).1
  readPage {m m' _ _ _} ht fragment request := by
    have hoffset : Step.Alike (fun n n' => n = m ∧ n' = m')
        (Action.ofResult request.offset m) (Action.ofResult request.offset m') := ⟨rfl, rfl, rfl⟩
    refine (hoffset.bind ?_).1
    rintro offset _ _ - - ⟨rfl, rfl⟩
    exact (alike_toAction (alike_reading (fun _ => rfl) ht)).bind fun _ _ _ _ _ h => ⟨rfl, h⟩
  size ht := (alike_reading (fun _ => rfl) ht).1
  nearest ht _ _ _ _ := (alike_reading (fun _ => rfl) ht).1
  write ht items := alike_toAction (alike_changing (unnumbered_foldl_write items) ht)
  eraseIds ht _ := alike_changing (fun _ => rfl) ht
  eraseWhere ht _ := alike_changing (fun _ => rfl) ht

end Chroma

/-! ## Connections -/

namespace Connection

variable {c : Connection} {a b : String}

/-- A connection to Chroma, Qdrant, PostgreSQL, Milvus or tables on a server in memory before it
holds a listing. Qdrant and PostgreSQL evaluate whole filters, so there is none to hold. The
server may hold anything. -/
def Unlisted : Connection → Prop
  | qdrant _ | postgres _ => True
  | c => c.Unread

/-- Sessions that keep collections apart make connections that do. -/
theorem answersTo_of_session {τ View : Type} {A : Adapter (Session τ)} {mk : Session τ → Connection}
    {look : τ → String → View} {J : Session τ → Prop} {p : String → Bool}
    (hmk : ∀ call s, perform call (mk s) = (A.perform call s).map id mk)
    (hA : A.Isolates J (Concordant look p) p) {s : Session τ} (hs : J s)
    (hwidths : s.dimensions.Remembers) (hprovider : s.context.Discreet p) (hb : p b = true)
    {calls calls' : List AdapterCall}
    (hcalls : calls.filter (·.keepsTo p) = calls'.filter (·.keepsTo p)) :
    AdapterCall.answersTo perform b calls (mk s) =
      AdapterCall.answersTo perform b calls' (mk s) := by
  rw [AdapterCall.answersTo_map hmk, AdapterCall.answersTo_map hmk]
  exact hA.answersTo_eq hb hcalls hs ⟨.refl s, ⟨hwidths, hwidths⟩, hprovider⟩

/-- Runs that are the same but for the calls about one collection have the same answers about
the others. -/
theorem answersTo_eq_of_filter_eq (hc : c.Unlisted) (hwidths : c.resolver.Remembers)
    (hprovider : c.context.Discreet (· != a)) (hne : b ≠ a) {calls calls' : List AdapterCall}
    (hcalls : calls.filter (·.keepsTo (· != a)) = calls'.filter (·.keepsTo (· != a))) :
    AdapterCall.answersTo perform b calls c = AdapterCall.answersTo perform b calls' c := by
  have hb : (b != a) = true := bne_iff_ne.2 hne
  have hping : ∀ {τ : Type} (t : τ), ∃ u, (pure () : Call τ Unit) t = (.ok u, t) :=
    fun _ => ⟨(), rfl⟩
  cases c with
  | chroma s =>
    have hkeeps := Family.keeps_fresh Chroma.readsOnly Chroma.atomic Chroma.guards Chroma.isolates
    exact answersTo_of_session (fun _ _ => rfl)
      (Chroma.confines.isolates Chroma.lawful hkeeps (fun hs => hs.1) (fun hs => .inr hs.2) hping)
      ⟨hc.1, upToDate_of_nil hc.2⟩ hwidths hprovider hb hcalls
  | qdrant s =>
    exact answersTo_of_session (fun _ _ => rfl)
      (Qdrant.isLocal.confines.isolates Qdrant.lawful (Adapter.keeps_true _) (fun hs => hs)
        (fun _ => .inl fun h => FilterCompiler.isComplete_of_allServerSide rfl h) hping)
      trivial hwidths hprovider hb hcalls
  | postgres s =>
    exact answersTo_of_session (fun _ _ => rfl)
      (Postgres.isLocal.confines.isolates Postgres.lawful (Adapter.keeps_true _) (fun hs => hs)
        (fun _ => .inl fun h => FilterCompiler.isComplete_of_allServerSide rfl h) hping)
      trivial hwidths hprovider hb hcalls
  | milvus s =>
    have hkeeps := Family.keeps_fresh Milvus.readsOnly Milvus.atomic Milvus.guards_true
      Milvus.isolates
    exact answersTo_of_session (fun _ _ => rfl)
      (Milvus.isLocal.confines.isolates Milvus.lawful hkeeps (fun hs => hs.1) (fun hs => .inr hs.2)
        hping)
      ⟨trivial, upToDate_of_nil hc⟩ hwidths hprovider hb hcalls
  | tables s =>
    exact answersTo_of_session (fun _ _ => rfl) (Columnar.isolates _) (upToDate_of_nil hc) hwidths
      hprovider hb hcalls
  | chromaRest | milvusRest | weaviate | weaviateRest | directory | unsteady => exact hc.elim

/-- Two collections, the keys of whose listings begin alike. What is held of the second is
dropped with what is held of the first. -/
def interleaved : List AdapterCall :=
  let waiting (id : String) : Item :=
    { marked id 1 "b" with document := some "text", embedding := none }
  [.connect, .createCollection "docs" 1 .cosine, .createCollection "docs\x1fold" 1 .cosine,
    .addItems "docs" [waiting "p"], .addItems "docs\x1fold" [waiting "q", waiting "r"],
    .listItems "docs\x1fold" (.first 1) (some positiveB), .deleteItems "docs" ["p"] none,
    .listItems "docs\x1fold" (.next (.offset 1) 1) (some positiveB)]

end Connection

end VectorBridge
