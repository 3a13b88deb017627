import Mathlib.Data.List.Nodup
import VectorBridge.Connection
import VectorBridge.Proofs.Keyed
import VectorBridge.Proofs.Session
/-!
# What a registry says of its connections

A registry notes the outcome of everything it does with a connection, and a connection
that nobody else acts on is as the last outcome left it. So what the entries say stays
true, whatever fails, and the entries themselves stay in order: they are never more than
allowed, their ids are distinct, and the active one is among them. A call changes one
entry, adds one or removes one, and disconnecting all is disconnecting one after the
other; each is followed here through `Registry.Sound`.
-/

namespace VectorBridge

variable {α : Type}

/-- Connections tell whether they are connected: they are from a successful connecting
on until a successful disconnecting. -/
structure Managed.Tells (α : Type) [Managed α] : Prop where
  connected : ∀ {c c' : α}, Managed.connect c = (.ok (), c') → Managed.isConnected c' = true
  not_connected : ∀ {c c' : α} {e : Error}, Managed.connect c = (.error e, c') →
    Managed.isConnected c' = Managed.isConnected c
  disconnected : ∀ {c c' : α}, Managed.disconnect c = (.ok (), c') →
    Managed.isConnected c' = false
  not_disconnected : ∀ {c c' : α} {e : Error}, Managed.disconnect c = (.error e, c') →
    Managed.isConnected c' = Managed.isConnected c

/-! ## Entries -/

namespace Entry

variable [Managed α]

/-- What an entry says of its connection is so. -/
structure Truthful (e : Entry α) : Prop where
  settled : e.state ≠ .connecting
  connected : e.state = .connected →
    Managed.isConnected e.connection = true ∧ e.lastError = none
  disconnected : e.state = .disconnected → Managed.isConnected e.connection = false
  failed : e.state = .error → e.lastError.isSome = true

/-- The entry after an attempt to connect. -/
def afterConnect (e : Entry α) : Entry α :=
  match Managed.connect e.connection with
  | (.ok (), connection) => { e with state := .connected, lastError := none, connection }
  | (.error failure, connection) =>
    { e with state := .error, lastError := some failure.display, connection }

/-- The entry after an attempt to disconnect. -/
def afterDisconnect (e : Entry α) : Entry α :=
  match Managed.disconnect e.connection with
  | (.ok (), connection) => { e with state := .disconnected, connection }
  | (.error _, connection) => { e with connection }

/-- Why an attempt to disconnect fails. -/
def disconnectFailure? (e : Entry α) : Option Error :=
  match (Managed.disconnect e.connection).1 with
  | .ok () => none
  | .error failure => some failure

variable {e : Entry α}

theorem truthful_afterConnect (T : Managed.Tells α) (e : Entry α) : e.afterConnect.Truthful := by
  rw [Entry.afterConnect]
  rcases hrun : Managed.connect e.connection with ⟨failure | _, c⟩
  · exact ⟨nofun, nofun, nofun, fun _ => rfl⟩
  · exact ⟨nofun, fun _ => ⟨T.connected hrun, rfl⟩, nofun, nofun⟩

theorem Truthful.afterDisconnect (T : Managed.Tells α) (h : e.Truthful) :
    e.afterDisconnect.Truthful := by
  rw [Entry.afterDisconnect]
  rcases hrun : Managed.disconnect e.connection with ⟨failure | _, c⟩
  · have hsame := T.not_disconnected hrun
    exact ⟨h.settled, fun hs => ⟨hsame.trans (h.connected hs).1, (h.connected hs).2⟩,
      fun hs => hsame.trans (h.disconnected hs), h.failed⟩
  · exact ⟨nofun, nofun, fun _ => T.disconnected hrun, nofun⟩

/-- An entry is truthful from the start. -/
theorem truthful_new (name : String) (c : α) :
    Truthful ⟨name, Managed.kind c,
      if Managed.isConnected c then .connected else .disconnected, none, c⟩ := by
  cases hc : Managed.isConnected c with
  | true => exact ⟨nofun, fun _ => ⟨hc, rfl⟩, nofun, nofun⟩
  | false => exact ⟨nofun, nofun, fun _ => hc, nofun⟩

end Entry

/-! ## Registries -/

namespace Registry

/-- The ids of the entries, in their order. -/
def ids (r : Registry α) : List Uuid := r.entries.map (·.1)

/-- A registry keeps no more connections than it may, each under an id of its own, one of
them active unless there are none, and says what is so. -/
structure Sound [Managed α] (r : Registry α) : Prop where
  bounded : r.entries.length ≤ maxConnections
  distinct : r.ids.Nodup
  active_eq_none_iff : r.active = none ↔ r.entries = []
  active_mem : ∀ id, r.active = some id → id ∈ r.ids
  truthful : ∀ x ∈ r.entries, x.2.Truthful

variable {r r' : Registry α} {id : Uuid} {e e' : Entry α}

theorem mem_of_find? (h : r.find? id = some e) : (id, e) ∈ r.entries := mem_of_lookup h

theorem find?_of_mem (hr : r.ids.Nodup) (h : (id, e) ∈ r.entries) : r.find? id = some e := by
  obtain ⟨e', he'⟩ := exists_lookup_of_mem h
  have hmem := mem_of_lookup he'
  obtain ⟨-, rfl⟩ := Prod.mk.inj (List.inj_on_of_nodup_map hr hmem h rfl)
  exact he'

theorem entry_eq_ok (h : r.find? id = some e) : r.entry id = .ok e := by
  rw [entry, h]

theorem entry_eq_error (h : r.find? id = none) : r.entry id = .error (unknown id) := by
  rw [entry, h]

/-! ### Changing an entry -/

@[simp] theorem ids_replace (r : Registry α) (id : Uuid) (e : Entry α) :
    (r.replace id e).ids = r.ids := by
  rw [ids, ids, replace, List.map_map]
  refine List.map_congr_left fun x _ => ?_
  rw [Function.comp_apply]
  split
  · rename_i hx
    exact hx.symm
  · rfl

/-- Where ids are distinct, replacing an entry changes it and no other. -/
theorem replace_eq (hr : r.ids.Nodup) (h : r.find? id = some e) (f : Entry α → Entry α) :
    r.replace id (f e) =
      { r with entries := r.entries.map fun x => if x.1 = id then (x.1, f x.2) else x } := by
  refine congrArg (Registry.mk · r.active) (List.map_congr_left fun x hx => ?_)
  split
  · rename_i hid
    obtain ⟨key, e'⟩ := x
    obtain rfl : key = id := hid
    obtain rfl := Option.some.inj (h.symm.trans (find?_of_mem hr hx))
    rfl
  · rfl

/-- An entry is replaced where it stands. -/
theorem replace_of_split {before after : List (Uuid × Entry α)} (hr : r.ids.Nodup)
    (h : r.entries = before ++ (id, e) :: after) (e' : Entry α) :
    (r.replace id e').entries = before ++ (id, e') :: after := by
  rw [ids, h, List.map_append, List.map_cons] at hr
  obtain ⟨-, hafter, hbefore⟩ := List.nodup_append.1 hr
  have hsame : ∀ l : List (Uuid × Entry α), id ∉ l.map (·.1) →
      (l.map fun x => if x.1 = id then (id, e') else x) = l := by
    intro l hl
    refine (List.map_congr_left fun x hx => if_neg fun hid => ?_).trans (List.map_id' _)
    exact hl (hid ▸ List.mem_map_of_mem hx)
  rw [replace, h, List.map_append, List.map_cons, if_pos rfl,
    hsame after (List.nodup_cons.1 hafter).1,
    hsame before fun hid => hbefore _ hid _ List.mem_cons_self rfl]

theorem ids_without (r : Registry α) (id : Uuid) :
    (r.without id).ids = r.ids.filter fun key => key ≠ id := by
  simp only [ids, without, List.filter_map]
  rfl

theorem Sound.replace [Managed α] (h : r.Sound) (id : Uuid) (he : e.Truthful) :
    (r.replace id e).Sound where
  bounded := by
    rw [Registry.replace, List.length_map]
    exact h.bounded
  distinct := by
    rw [ids_replace]
    exact h.distinct
  active_eq_none_iff := h.active_eq_none_iff.trans (by rw [Registry.replace, List.map_eq_nil_iff])
  active_mem id' hid' := by
    rw [ids_replace]
    exact h.active_mem id' hid'
  truthful x hx := by
    obtain ⟨y, hy, rfl⟩ := List.mem_map.1 hx
    split
    · exact he
    · exact h.truthful y hy

section Calls

variable [Managed α]

theorem connect_of_find? (h : r.find? id = some e) :
    (connect id r).2 = r.replace id e.afterConnect := by
  rw [connect, entry_eq_ok h]
  simp only [Entry.afterConnect]
  rcases Managed.connect e.connection with ⟨failure | _, c⟩ <;> rfl

theorem connect_of_unknown (h : r.find? id = none) : connect id r = (.error (unknown id), r) := by
  rw [connect, entry_eq_error h]

theorem disconnect_of_find? (h : r.find? id = some e) :
    disconnect id r =
      ((Managed.disconnect e.connection).1, r.replace id e.afterDisconnect) := by
  rw [disconnect, entry_eq_ok h]
  simp only [Entry.afterDisconnect]
  rcases Managed.disconnect e.connection with ⟨failure | _, c⟩ <;> rfl

theorem disconnect_of_unknown (h : r.find? id = none) :
    disconnect id r = (.error (unknown id), r) := by
  rw [disconnect, entry_eq_error h]

theorem Sound.connect (T : Managed.Tells α) (h : r.Sound) (id : Uuid) :
    (connect id r).2.Sound := by
  cases hfind : r.find? id with
  | none =>
    rw [connect_of_unknown hfind]
    exact h
  | some e =>
    rw [connect_of_find? hfind]
    exact h.replace id (e.truthful_afterConnect T)

theorem Sound.disconnect (T : Managed.Tells α) (h : r.Sound) (id : Uuid) :
    (disconnect id r).2.Sound := by
  cases hfind : r.find? id with
  | none =>
    rw [disconnect_of_unknown hfind]
    exact h
  | some e =>
    rw [disconnect_of_find? hfind]
    exact h.replace id ((h.truthful _ (mem_of_find? hfind)).afterDisconnect T)

theorem ids_connect (id : Uuid) (r : Registry α) : (Registry.connect id r).2.ids = r.ids := by
  cases hfind : r.find? id with
  | none => rw [connect_of_unknown hfind]
  | some e => rw [connect_of_find? hfind, ids_replace]

theorem ids_disconnect (id : Uuid) (r : Registry α) :
    (Registry.disconnect id r).2.ids = r.ids := by
  cases hfind : r.find? id with
  | none => rw [disconnect_of_unknown hfind]
  | some e => rw [disconnect_of_find? hfind, ids_replace]

theorem Sound.register (h : r.Sound) (hnew : id ∉ r.ids) (name : String) (c : α) :
    (register id name c r).2.Sound := by
  rw [Registry.register]
  split
  · exact h
  · rename_i hroom
    refine ⟨?_, ?_, ?_, ?_, ?_⟩
    · rw [List.length_append, List.length_singleton]
      omega
    · simp only [ids, List.map_append, List.map_cons, List.map_nil]
      exact List.nodup_append.2 ⟨h.distinct, List.nodup_singleton _, by
        rintro key hkey _ hid rfl
        exact hnew (List.mem_singleton.1 hid ▸ hkey)⟩
    · cases r.active <;> simp
    · intro id' hid'
      simp only [ids, List.map_append, List.mem_append]
      cases hactive : r.active with
      | none =>
        rw [hactive] at hid'
        cases hid'
        exact .inr List.mem_cons_self
      | some active =>
        rw [hactive] at hid'
        cases hid'
        exact .inl (h.active_mem _ hactive)
    · intro x hx
      rcases List.mem_append.1 hx with hx | hx
      · exact h.truthful x hx
      · rw [List.mem_singleton.1 hx]
        exact Entry.truthful_new name c

theorem ids_register (id : Uuid) (name : String) (c : α) (r : Registry α) :
    (register id name c r).2.ids.Sublist (r.ids ++ [id]) := by
  rw [Registry.register]
  split
  · exact List.sublist_append_left _ _
  · simp only [ids, List.map_append, List.map_cons, List.map_nil]
    exact List.Sublist.refl _

/-! ### Removing an entry -/

theorem Sound.without (h : r.Sound) (id : Uuid) : (r.without id).Sound := by
  have hsub : (r.without id).entries.Sublist r.entries := List.filter_sublist
  have hids := ids_without r id
  refine ⟨Nat.le_trans hsub.length_le h.bounded, ?_, ?_, ?_,
    fun x hx => h.truthful x (hsub.subset hx)⟩
  · rw [hids]
    exact h.distinct.filter _
  · simp only [Registry.without]
    split
    · rw [Option.map_eq_none_iff, List.head?_eq_none_iff]
    · rename_i hother
      rw [h.active_eq_none_iff]
      constructor
      · intro hnone
        rw [hnone]
        rfl
      · -- the active entry would have stayed
        intro hnone
        by_contra hsome
        obtain ⟨active, hactive⟩ := Option.ne_none_iff_exists'.1 (mt h.active_eq_none_iff.1 hsome)
        have hmem : active ∈ (r.without id).ids := by
          rw [hids]
          refine List.mem_filter.2 ⟨h.active_mem _ hactive, decide_eq_true fun heq => ?_⟩
          exact hother (heq ▸ hactive)
        rw [ids, show (r.without id).entries = [] from hnone] at hmem
        cases hmem
  · intro id' hid'
    simp only [Registry.without] at hid'
    split at hid'
    · obtain ⟨x, hx, rfl⟩ := Option.map_eq_some_iff.1 hid'
      exact List.mem_map_of_mem (List.mem_of_mem_head? hx)
    · rename_i hother
      rw [hids]
      refine List.mem_filter.2 ⟨h.active_mem _ hid', decide_eq_true fun heq => ?_⟩
      exact hother (heq ▸ hid')

theorem remove_apply (id : Uuid) (r : Registry α) :
    remove id r = match Registry.disconnect id r with
      | (.ok (), r') => (.ok (), r'.without id)
      | (.error e, r') => (.error e, r') := by
  rw [remove, Step.bind_apply]
  rcases Registry.disconnect id r with ⟨e | _, r'⟩ <;> rfl

theorem Sound.remove (T : Managed.Tells α) (h : r.Sound) (id : Uuid) : (remove id r).2.Sound := by
  have hdone := h.disconnect T id
  rw [remove_apply]
  rcases hrun : Registry.disconnect id r with ⟨e | _, r'⟩ <;> rw [hrun] at hdone
  · exact hdone
  · exact hdone.without id

theorem ids_remove (id : Uuid) (r : Registry α) : (remove id r).2.ids.Sublist r.ids := by
  have hsame := ids_disconnect id r
  rw [remove_apply]
  rcases hrun : Registry.disconnect id r with ⟨e | _, r'⟩ <;> rw [hrun] at hsame
  · exact hsame ▸ List.Sublist.refl _
  · rw [ids_without, show r'.ids = r.ids from hsame]
    exact List.filter_sublist

/-- **A removal that fails leaves the registry as it was**: of the connection it could not
disconnect the registry says what it said before. -/
theorem remove_of_error (hr : r.ids.Nodup) {failure : Error}
    (hrun : remove id r = (.error failure, r')) :
    r' = { r with entries := r.entries.map fun x =>
      if x.1 = id then
        (x.1, { x.2 with connection := (Managed.disconnect x.2.connection).2 })
      else x } := by
  rw [remove_apply] at hrun
  cases hfind : r.find? id with
  | none =>
    rw [disconnect_of_unknown hfind] at hrun
    obtain ⟨-, rfl⟩ := Prod.mk.inj hrun
    have hsame : (r.entries.map fun x => if x.1 = id then
        (x.1, { x.2 with connection := (Managed.disconnect x.2.connection).2 }) else x) =
          r.entries := by
      refine (List.map_congr_left fun x hx => if_neg fun hid => ?_).trans (List.map_id' _)
      obtain ⟨e, he⟩ := exists_lookup_of_mem hx
      rw [hid] at he
      cases hfind.symm.trans he
    rw [hsame]
  | some e =>
    rw [disconnect_of_find? hfind] at hrun
    rcases hout : Managed.disconnect e.connection with ⟨e' | _, c⟩
    · rw [hout] at hrun
      obtain ⟨-, rfl⟩ := Prod.mk.inj hrun
      have hafter : e.afterDisconnect =
          { e with connection := (Managed.disconnect e.connection).2 } := by
        rw [Entry.afterDisconnect, hout]
      rw [hafter]
      exact replace_eq hr hfind
        fun e => { e with connection := (Managed.disconnect e.connection).2 }
    · rw [hout] at hrun
      cases hrun

/-! ### Disconnecting all -/

/-- The answer to disconnecting some entries: the first failure, if there is one. -/
def firstFailure (entries : List (Uuid × Entry α)) : Result Unit :=
  match entries.findSome? fun x => x.2.disconnectFailure? with
  | some failure => .error failure
  | none => .ok ()

/-- Disconnecting the entries after some place tries each of them, and answers with the
first failure. -/
theorem disconnectEach_eq {before after : List (Uuid × Entry α)} (hr : r.ids.Nodup)
    (h : r.entries = before ++ after) :
    disconnectEach (after.map (·.1)) r = (firstFailure after,
      { r with entries := before ++ after.map fun x => (x.1, x.2.afterDisconnect) }) := by
  induction after generalizing r before with
  | nil =>
    rw [List.map_nil, List.map_nil, ← h]
    rfl
  | cons x rest ih =>
    obtain ⟨id, e⟩ := x
    have hfind : r.find? id = some e :=
      find?_of_mem hr (h ▸ List.mem_append_right _ List.mem_cons_self)
    -- the entry is changed where it stands, and the rest comes after it
    have hnext : (r.replace id e.afterDisconnect).entries =
        (before ++ [(id, e.afterDisconnect)]) ++ rest := by
      rw [replace_of_split hr h, List.append_assoc]
      rfl
    have hrest := ih (by rw [ids_replace]; exact hr) hnext
    rw [List.append_assoc] at hrest
    simp only [List.map_cons, disconnectEach, disconnect_of_find? hfind, firstFailure,
      List.findSome?_cons, Entry.disconnectFailure?]
    rcases (Managed.disconnect e.connection).1 with failure | _
    · simp only [hrest]
      rfl
    · exact hrest

/-- **Disconnecting all tries every entry**, and answers with the first failure in the
order of the entries. -/
theorem disconnectAll_eq (hr : r.ids.Nodup) :
    disconnectAll r = (firstFailure r.entries,
      { r with entries := r.entries.map fun x => (x.1, x.2.afterDisconnect) }) :=
  disconnectEach_eq hr (List.nil_append _).symm

theorem ids_disconnectAll (hr : r.ids.Nodup) : (Registry.disconnectAll r).2.ids = r.ids := by
  rw [disconnectAll_eq hr, ids, List.map_map]
  rfl

theorem Sound.disconnectAll (T : Managed.Tells α) (h : r.Sound) :
    (Registry.disconnectAll r).2.Sound := by
  have hids := ids_disconnectAll h.distinct
  have hdistinct := h.distinct
  have hactive := h.active_mem
  rw [← hids] at hdistinct hactive
  rw [disconnectAll_eq h.distinct] at hdistinct hactive ⊢
  refine ⟨?_, hdistinct, ?_, hactive, ?_⟩
  · rw [List.length_map]
    exact h.bounded
  · rw [List.map_eq_nil_iff]
    exact h.active_eq_none_iff
  · refine List.forall_mem_map.2 fun x hx => ?_
    exact (h.truthful x hx).afterDisconnect T

theorem Sound.setActive (h : r.Sound) (id : Uuid) : (setActive id r).2.Sound := by
  rw [Registry.setActive]
  cases hfind : r.find? id with
  | none =>
    rw [entry_eq_error hfind]
    exact h
  | some e =>
    have hmem : (id, e) ∈ r.entries := mem_of_find? hfind
    rw [entry_eq_ok hfind]
    refine ⟨h.bounded, h.distinct, ⟨nofun, fun hnone => ?_⟩, fun id' hid' => ?_, h.truthful⟩
    · rw [show r.entries = [] from hnone] at hmem
      cases hmem
    · cases hid'
      exact List.mem_map_of_mem hmem

omit [Managed α] in
theorem ids_setActive (id : Uuid) (r : Registry α) : (setActive id r).2.ids = r.ids := by
  rw [setActive]
  cases r.entry id <;> rfl

end Calls

end Registry

/-! ## Connections -/

/-- An adapter is connected when it succeeds to connect, not connected when it succeeds to
disconnect, and as it was when it fails to. -/
structure Adapter.Connects {τ : Type} (A : Adapter (Session τ)) : Prop where
  isConnected : A.isConnected = Session.connected
  connect : ∀ s, (A.connect s).2.connected =
    if (A.connect s).1 = .ok () then true else s.connected
  disconnect : ∀ s, (A.disconnect s).2.connected =
    if (A.disconnect s).1 = .ok () then false else s.connected

/-- Adapters connect once the server has answered something. -/
theorem Session.connected_markConnected {τ β : Type} (c : Call τ β) (s : Session τ) :
    ((do
        let _ ← call c
        markConnected : Action (Session τ) Unit) s).2.connected =
      if ((do
        let _ ← call c
        markConnected : Action (Session τ) Unit) s).1 = .ok () then true else s.connected := by
  rcases hask : c s.server with ⟨e | b, t⟩
  · rw [Step.bind_of_error (call_of_error hask)]
    rfl
  · rw [Step.bind_of_ok (call_of_ok hask)]
    rfl

theorem Family.adapter_connects {τ Handle Condition Fragment : Type}
    (F : Family τ Handle Condition Fragment) : F.adapter.Connects :=
  ⟨rfl, Session.connected_markConnected F.ping, fun _ => rfl⟩

theorem Columnar.adapter_connects {τ : Type} [Store τ] : (adapter (τ := τ)).Connects :=
  ⟨rfl, Session.connected_markConnected Store.tables, fun _ => rfl⟩

theorem Outcomes.adapter_connects : adapter.Connects where
  isConnected := rfl
  connect s := by
    show (connecting s).2.connected = if (connecting s).1 = .ok () then true else s.connected
    rw [connecting]
    rcases s.server.next with ⟨_ | message, server⟩ <;> rfl
  disconnect s := by
    show (disconnecting s).2.connected = if (disconnecting s).1 = .ok () then false else s.connected
    rw [disconnecting]
    rcases s.server.disconnect with _ | message <;> rfl

namespace Connection

/-- What is done with a session of any kind leaves it connected or not as its adapter
does. -/
theorem connected_onSession {b : Bool}
    {f : {τ : Type} → Adapter (Session τ) → Session τ → Result Unit × Session τ}
    (hf : ∀ {τ : Type} {A : Adapter (Session τ)}, A.Connects → ∀ s,
      (f A s).2.connected = if (f A s).1 = .ok () then b else s.connected) (c : Connection) :
    Managed.isConnected (c.onSession f).2 =
      if (c.onSession f).1 = .ok () then b else Managed.isConnected c := by
  cases c with
  | chroma s | chromaRest s | qdrant s | postgres s | milvus s | milvusRest s | weaviate s
  | weaviateRest s => exact hf (Family.adapter_connects _) s
  | tables s | directory s => exact hf Columnar.adapter_connects s
  | unsteady s => exact hf Outcomes.adapter_connects s

/-- Connections of all kinds tell whether they are connected. -/
theorem tells : Managed.Tells Connection := by
  have hconnect := connected_onSession (f := fun A s => A.connect s) fun hA => hA.connect
  have hdisconnect := connected_onSession (f := fun A s => A.disconnect s) fun hA => hA.disconnect
  refine ⟨fun {c c'} h => ?_, fun {c c' e} h => ?_, fun {c c'} h => ?_, fun {c c' e} h => ?_⟩
  · have := hconnect c
    rwa [show c.onSession (fun A s => A.connect s) = _ from h, if_pos rfl] at this
  · have := hconnect c
    rwa [show c.onSession (fun A s => A.connect s) = _ from h, if_neg nofun] at this
  · have := hdisconnect c
    rwa [show c.onSession (fun A s => A.disconnect s) = _ from h, if_pos rfl] at this
  · have := hdisconnect c
    rwa [show c.onSession (fun A s => A.disconnect s) = _ from h, if_neg nofun] at this

end Connection

/-! ## Runs -/

/-- A call of a registry. -/
inductive RegistryCall (α : Type) where
  | register (id : Uuid) (name : String) (connection : α)
  | connect (id : Uuid)
  | disconnect (id : Uuid)
  | remove (id : Uuid)
  | setActive (id : Uuid)
  | disconnectAll

/-- The id that a call registers a connection under. -/
def RegistryCall.newId? : RegistryCall α → Option Uuid
  | register id _ _ => some id
  | _ => none

namespace Registry

variable [Managed α] {r r' : Registry α} {id : Uuid}

/-- Makes a call. -/
def perform : RegistryCall α → Action (Registry α) Unit
  | .register id name connection => do
    let _ ← register id name connection
    pure ()
  | .connect id => connect id
  | .disconnect id => disconnect id
  | .remove id => remove id
  | .setActive id => setActive id
  | .disconnectAll => disconnectAll

/-- The registry after some calls. -/
def after (r : Registry α) (calls : List (RegistryCall α)) : Registry α :=
  calls.foldl (fun r call => (perform call r).2) r

theorem snd_perform_register (id : Uuid) (name : String) (c : α) (r : Registry α) :
    (perform (.register id name c) r).2 = (register id name c r).2 :=
  Step.snd_then_pure _ _ r

/-- A call leaves the entries in their order, and adds one at the end at most. -/
theorem ids_perform (hr : r.ids.Nodup) (call : RegistryCall α) :
    (perform call r).2.ids.Sublist (r.ids ++ call.newId?.toList) := by
  cases call with
  | register id name c =>
    rw [snd_perform_register]
    exact ids_register id name c r
  | connect id => exact (ids_connect id r).symm ▸ List.sublist_append_left _ _
  | disconnect id => exact (ids_disconnect id r).symm ▸ List.sublist_append_left _ _
  | remove id => exact (ids_remove id r).trans (List.sublist_append_left _ _)
  | setActive id => exact (ids_setActive id r).symm ▸ List.sublist_append_left _ _
  | disconnectAll => exact (ids_disconnectAll hr).symm ▸ List.sublist_append_left _ _

/-- **Every call keeps a registry sound**, whatever fails. -/
theorem Sound.perform (T : Managed.Tells α) (h : r.Sound) (call : RegistryCall α)
    (hnew : ∀ id, call.newId? = some id → id ∉ r.ids) : (perform call r).2.Sound := by
  cases call with
  | register id name c =>
    rw [snd_perform_register]
    exact h.register (hnew id rfl) name c
  | connect id => exact h.connect T id
  | disconnect id => exact h.disconnect T id
  | remove id => exact h.remove T id
  | setActive id => exact h.setActive id
  | disconnectAll => exact h.disconnectAll T

theorem sound_empty : (empty : Registry α).Sound :=
  ⟨Nat.zero_le _, List.nodup_nil, ⟨fun _ => rfl, fun _ => rfl⟩, nofun, fun _ hx => nomatch hx⟩

/-- A run keeps a registry sound and its entries in the order of their registration, when
ids are registered once. -/
theorem Sound.after (T : Managed.Tells α) (h : r.Sound) {calls : List (RegistryCall α)}
    (hfresh : (r.ids ++ calls.filterMap RegistryCall.newId?).Nodup) :
    (r.after calls).Sound ∧
      (r.after calls).ids.Sublist (r.ids ++ calls.filterMap RegistryCall.newId?) := by
  induction calls generalizing r with
  | nil => exact ⟨h, List.sublist_append_left _ _⟩
  | cons call calls ih =>
    have hsplit : (call :: calls).filterMap RegistryCall.newId? =
        call.newId?.toList ++ calls.filterMap RegistryCall.newId? := by
      cases hid : call.newId? <;> simp [hid]
    rw [hsplit, ← List.append_assoc] at hfresh ⊢
    have hsub := (ids_perform h.distinct call).append_right (calls.filterMap RegistryCall.newId?)
    have hnew : ∀ id, call.newId? = some id → id ∉ r.ids := by
      intro id hid hmem
      rw [hid] at hfresh
      have hdisjoint := (List.nodup_append.1 (List.nodup_append.1 hfresh).1).2.2
      exact hdisjoint id hmem id List.mem_cons_self rfl
    obtain ⟨hsound, hids⟩ := ih (h.perform T call hnew) (hfresh.sublist hsub)
    exact ⟨hsound, hids.trans hsub⟩

/-- **A registry is sound after every run**, whatever connecting and disconnecting come to:
its ids are those that were registered, in that order, a removal that fails changes nothing
that it says, and disconnecting all tries every entry and answers with the first failure. -/
theorem sound_after_calls (T : Managed.Tells α) {calls : List (RegistryCall α)}
    (hfresh : (calls.filterMap RegistryCall.newId?).Nodup) :
    (empty.after calls).Sound ∧
      (empty.after calls).ids.Sublist (calls.filterMap RegistryCall.newId?) ∧
      (∀ id failure r', remove id (empty.after calls) = (.error failure, r') →
        r' = { empty.after calls with
          entries := (empty.after calls).entries.map fun x =>
            if x.1 = id then
              (x.1, { x.2 with connection := (Managed.disconnect x.2.connection).2 })
            else x }) ∧
      disconnectAll (empty.after calls) = (firstFailure (empty.after calls).entries,
        { empty.after calls with
          entries := (empty.after calls).entries.map fun x => (x.1, x.2.afterDisconnect) }) := by
  obtain ⟨hsound, hids⟩ := (sound_empty (α := α)).after T hfresh
  exact ⟨hsound, hids, fun _ _ _ hrun => remove_of_error hsound.distinct hrun,
    disconnectAll_eq hsound.distinct⟩

/-- Two connections, of which the second one fails to connect again and cannot be
disconnected. -/
def stuckCalls : List (RegistryCall Connection) :=
  [.register ⟨1⟩ "steady" (.unsteady (.start ⟨[], none⟩ .empty)),
    .register ⟨2⟩ "stuck" (.unsteady (.start ⟨[none, some "down"], some "busy"⟩ .empty)),
    .connect ⟨1⟩, .connect ⟨2⟩, .connect ⟨2⟩, .setActive ⟨2⟩, .remove ⟨2⟩]

/-- A registry with a connection that is stuck. -/
theorem sound_after_calls_of_stuck :
    (stuckCalls.filterMap RegistryCall.newId?).Nodup ∧
      (empty.after stuckCalls).summaries.map (fun x => (x.name, x.state)) =
        [("steady", .connected), ("stuck", .error)] ∧
      (empty.after stuckCalls).Sound ∧
      disconnectAll (empty.after stuckCalls) = (firstFailure (empty.after stuckCalls).entries,
        { empty.after stuckCalls with
          entries := (empty.after stuckCalls).entries.map fun x =>
            (x.1, x.2.afterDisconnect) }) ∧
      (disconnectAll (empty.after stuckCalls)).1 = .error (.backend "busy") := by
  have hfresh : (stuckCalls.filterMap RegistryCall.newId?).Nodup := by decide
  obtain ⟨hsound, -, -, hall⟩ := sound_after_calls Connection.tells hfresh
  exact ⟨hfresh, by decide +kernel, hsound, hall, by decide +kernel⟩

end Registry

end VectorBridge
