import VectorBridge.Proofs.Family.Again
import VectorBridge.Proofs.Family.Atomic
import VectorBridge.Proofs.Family.Removal
import VectorBridge.Proofs.Freshness
/-!
# Fresh listings of a family

Every call that changes a collection drops the listings of that collection when the change is
made, and a call that fails has made none. So a family keeps its sessions up to date when
its servers keep collections apart: what is done to one shows in the listings of no other,
and a collection that is created shows in none at all.
-/

namespace VectorBridge

namespace Family

open Session

variable {τ Handle Condition Fragment : Type} {F : Family τ Handle Condition Fragment}
variable {I : τ → Prop} {name : String} {s s' : Session τ} {filter : Option Filter}

/-- What fetching a listing gives: the filter is compiled, the collection opened, what passes
the server's part of the filter is fetched, and the client's part is applied. -/
def Finds (F : Family τ Handle Condition Fragment) (t : τ) (name : String)
    (filter : Option Filter) (found : List Item) : Prop :=
  ∃ compiled h items, F.compiler.compile? filter = .ok compiled ∧
    F.attach name t = (.ok h, t) ∧ F.fetchAll h compiled.native t = (.ok items, t) ∧
    found = compiled.postFilter items

/-- What is done to a collection shows in no listing of another, and dropping a collection
does so or fails and does nothing. -/
structure Isolates (F : Family τ Handle Condition Fragment) (I : τ → Prop) : Prop where
  create : ∀ {t c name width metric}, I t →
    Finds.Preserved F.Finds (fun _ => True) t (F.create c name width metric t).2
  drop : ∀ {t name t'}, I t → F.drop name t = (.ok (), t') →
    Finds.Preserved F.Finds (· ≠ name) t t'
  atomic_drop : ∀ name, Step.Atomic id (F.drop name)
  write : ∀ {t name h items t'}, I t → F.attach name t = (.ok h, t) →
    F.write h items t = (.ok (), t') → Finds.Preserved F.Finds (· ≠ name) t t'
  eraseIds : ∀ {t name h ids t'}, I t → F.attach name t = (.ok h, t) →
    F.eraseIds h ids t = (.ok (), t') → Finds.Preserved F.Finds (· ≠ name) t t'
  eraseWhere : ∀ {t name h fragment t'}, I t → F.attach name t = (.ok h, t) →
    F.eraseWhere h fragment t = (.ok (), t') → Finds.Preserved F.Finds (· ≠ name) t t'

/-- The server satisfies an invariant, and what is held of it is fresh. -/
def Fresh (F : Family τ Handle Condition Fragment) (I : τ → Prop) (s : Session τ) : Prop :=
  I s.server ∧ s.UpToDate F.Finds

theorem enduring_fresh : Enduring (F.Fresh I) := fun h hlistings hs =>
  ⟨by rw [h.server]; exact hs.1, enduring_upToDate h hlistings hs.2⟩

/-! ## Calls that read -/

section Fetching

variable {compiled : CompiledFilter Fragment} {h : Handle}

/-- A listing that is fetched whole and filtered by the client. -/
def fetchListing (F : Family τ Handle Condition Fragment) (h : Handle)
    (compiled : CompiledFilter Fragment) : Action (Session τ) (List Item) := do
  pure (compiled.postFilter (← onServer (F.fetchAll h compiled.native)))

theorem leaves_fetchListing (R : F.ReadsOnly) : Step.Leaves (F.fetchListing h compiled) :=
  (leaves_onServer (R.fetchAll h _)).bind fun _ => Step.leaves_pure _

theorem finds_of_fetchListing (R : F.ReadsOnly)
    (hcompiled : F.compiler.compile? filter = .ok compiled)
    (hattach : F.attach name s.server = (.ok h, s.server)) {found : List Item}
    (hfetch : F.fetchListing h compiled s = (.ok found, s)) :
    F.Finds s.server name filter found := by
  obtain ⟨items, s₂, hitems, hpure⟩ := Step.bind_eq_ok_iff.1 hfetch
  rw [onServer_apply] at hitems
  obtain ⟨hread, -⟩ := Prod.mk.inj hitems
  obtain ⟨hfound, -⟩ := Prod.mk.inj hpure
  exact ⟨compiled, h, items, hcompiled, hattach, Prod.ext hread (R.fetchAll h _ _),
    (Except.ok.inj hfound).symm⟩

end Fetching

/-- A listing is read page by page, or fetched whole and held. -/
theorem fresh_listItems (R : F.ReadsOnly) (name : String) (request : PageRequest)
    (filter : Option Filter) : Step.Keeps (F.Fresh I) (F.listItems name request filter) := by
  refine Step.Keeps.bind leaves_ensureConnected.keeps fun _ s hs => ?_
  refine Step.keeps_bind_at hs fun _ s₁ hrun => ?_
  obtain ⟨hvalid, rfl⟩ := Prod.mk.inj hrun
  refine Step.keeps_bind_at hs fun compiled s₁ hcompile => ?_
  obtain ⟨hcompiled, rfl⟩ := Prod.mk.inj hcompile
  have hleft := leaves_call (R.attach name) s
  refine Step.keeps_bind_at (by rwa [hleft]) fun h s₁ hcall => ?_
  rw [hcall] at hleft
  obtain rfl : s₁ = s := hleft
  obtain ⟨t, hattach, hsame⟩ := call_eq_ok_iff.1 hcall
  obtain rfl : t = s₁.server := congrArg server hsame.symm
  split
  · exact (leaves_onServer (R.readPage h _ _)).keeps s₁ hs
  · exact ⟨Unlisted.materialized lasting_serverHas.unlisted (leaves_fetchListing R).keeps s₁ hs.1,
      hs.2.materialized (PageRequest.validate_eq_ok_iff.1 hvalid) (leaves_fetchListing R)
        fun _ hfetch => finds_of_fetchListing R hcompiled hattach hfetch⟩

/-- A page is cut by the server, or from the listing that is held. -/
theorem listItems_eq_ok (R : F.ReadsOnly) {request : PageRequest} {page : Page Item}
    (hlist : F.listItems name request filter s = (.ok page, s')) :
    ∃ compiled h, 0 < request.size ∧ F.compiler.compile? filter = .ok compiled ∧
      F.attach name s.server = (.ok h, s.server) ∧
      (compiled.isComplete = true ∧ onServer (F.readPage h compiled.native request) s =
          (.ok page, s') ∨
        materialized (listingKey name filter) request (F.fetchListing h compiled) s =
          (.ok page, s')) := by
  rw [listItems, ensureConnected_bind_eq_ok_iff, Action.ofResult_bind_eq_ok_iff] at hlist
  obtain ⟨-, _, hvalid, hlist⟩ := hlist
  obtain ⟨compiled, hcompiled, hopen⟩ := Action.ofResult_bind_eq_ok_iff.1 hlist
  obtain ⟨h, s₁, hcall, hpage⟩ := Step.bind_eq_ok_iff.1 hopen
  have hleft := leaves_call (R.attach name) s
  rw [hcall] at hleft
  obtain rfl : s₁ = s := hleft
  obtain ⟨t, hattach, hsame⟩ := call_eq_ok_iff.1 hcall
  obtain rfl : t = s₁.server := congrArg server hsame.symm
  refine ⟨compiled, h, PageRequest.validate_eq_ok_iff.1 hvalid, hcompiled, hattach, ?_⟩
  split at hpage
  · rename_i hcomplete
    exact .inl ⟨hcomplete, hpage⟩
  · exact .inr hpage

/-! ## Calls that change a collection -/

/-- Listings are dropped in the last step of an addition. -/
theorem atomic_listings (F : Family τ Handle Condition Fragment) (name : String)
    (items : List Item) : Step.Atomic listings (F.addItems name items) := by
  have hlast : ∀ h batch, Step.Atomic listings (do
      onServer (F.write h batch)
      dropListings name : Action (Session τ) Unit) := fun _ _ =>
    .bind (fun _ => rfl) fun _ => (succeeds_dropListings name).atomic
  refine .bind (fun s => congrArg listings (leaves_ensureConnected s)) fun _ => ?_
  split
  · exact (Step.leaves_pure _).atomic
  refine .bind (fun _ => rfl) fun _ => .bind (fun _ => rfl) fun _ => .bind (fun _ => rfl) fun h =>
    .bind (fun _ => rfl) fun batch => .bind (fun _ => rfl) fun _ => .bind (fun _ => rfl) fun d =>
      .bind (fun _ => rfl) fun width => ?_
  split
  · split
    · exact .bind (fun _ => rfl) fun _ => hlast h batch
    · exact hlast h batch
  · exact hlast h batch

/-- A batch is written under the handle that was opened, in the step before the listings are
dropped. -/
theorem fresh_addItems (R : F.ReadsOnly) (A : F.Atomic) (G : F.Guards I fun _ => True)
    (P : F.Isolates I) (name : String) (items : List Item) :
    Step.Keeps (F.Fresh I) (F.addItems name items) := by
  intro s hs
  refine ⟨keeps_addItems R G name (fun _ _ => trivial) s hs.1, ?_⟩
  rcases hrun : F.addItems name items s with ⟨e | u, s'⟩
  · exact hs.2.of_eq (A.addItems R name items s s' e hrun)
      (atomic_listings F name items s s' e hrun)
  · cases hitems : items.isEmpty with
    | true =>
      rw [addItems, ensureConnected_bind_eq_ok_iff, hitems, if_pos rfl] at hrun
      obtain ⟨-, hpure⟩ := hrun
      cases hpure
      exact hs.2
    | false =>
      obtain ⟨h, batch, log, d, s₁, width, t, W, rfl⟩ := exists_addition R hitems hrun
      have hs₁ := W.eq_with R
      have hwritten : F.write h batch s.server = (.ok (), t) := by
        rw [← W.written, hs₁]
      refine hs.2.of_invalidate (P.write hs.1 W.attach hwritten) ?_
      show s₁.listings.invalidate _ = _
      rw [hs₁]

/-- What is removed from a collection is removed under the handle that was opened. -/
theorem fresh_erase (R : F.ReadsOnly) {name : String} {erase : Handle → Call τ Unit}
    (hatomic : ∀ h, Step.Atomic id (erase h)) (hkeeps : ∀ h, Step.Keeps I (erase h))
    (hspares : ∀ {t h t'}, I t → F.attach name t = (.ok h, t) → erase h t = (.ok (), t') →
      Finds.Preserved F.Finds (· ≠ name) t t') :
    Step.Keeps (F.Fresh I) (do
      let h ← call (F.attach name)
      call (erase h)
      dropListings name) := by
  intro s hs
  have hleft := leaves_call (R.attach name) s
  refine Step.keeps_bind_at (by rwa [hleft]) fun h s₁ hcall => ?_
  rw [hcall] at hleft
  obtain rfl : s₁ = s := hleft
  obtain ⟨t, hattach, hsame⟩ := call_eq_ok_iff.1 hcall
  obtain rfl : t = s₁.server := congrArg server hsame.symm
  have hkept := Step.Keeps.bind (Keeps.call (hkeeps h))
    (fun _ => Unlisted.dropListings lasting_serverHas.unlisted name) s₁ hs.1
  refine ⟨hkept, hs.2.of_change (fun e t hfail => ?_) (fun t hok => ?_) fun _ => ⟨rfl, rfl⟩⟩
  · exact atomic_toAction (hatomic h) _ t e hfail
  · exact hspares hs.1 hattach (Call.toAction_eq_ok_iff.1 hok)

theorem fresh_deleteIds (R : F.ReadsOnly) (A : F.Atomic) (G : F.Guards I fun _ => True)
    (P : F.Isolates I) (name : String) (ids : List String) :
    Step.Keeps (F.Fresh I) (F.deleteIds name ids) := by
  unfold deleteIds
  split
  · exact (Step.leaves_pure _).keeps
  · exact fresh_erase R (A.eraseIds · ids) (G.eraseIds · ids) P.eraseIds

theorem fresh_deleteItems (R : F.ReadsOnly) (A : F.Atomic) (G : F.Guards I fun _ => True)
    (P : F.Isolates I) (name : String) (ids : List String) (filter : Option Filter) :
    Step.Keeps (F.Fresh I) (F.deleteItems name ids filter) := by
  refine Step.Keeps.bind leaves_ensureConnected.keeps fun _ => ?_
  split
  · exact fresh_deleteIds R A G P name ids
  · refine Step.Keeps.bind (fun _ hs => hs) fun compiled => ?_
    split
    · exact fresh_erase R (A.eraseWhere · _) (G.eraseWhere · _) P.eraseWhere
    · exact Step.Keeps.bind
        (lasts_filteredIds R (fun request => fresh_listItems R name request _) ids)
        fun found => fresh_deleteIds R A G P name found

theorem fresh_dropCollection (G : F.Guards I fun _ => True) (P : F.Isolates I) (name : String) :
    Step.Keeps (F.Fresh I) (F.dropCollection name) := by
  refine Step.Keeps.bind leaves_ensureConnected.keeps fun _ s hs => ⟨?_, ?_⟩
  · exact Step.Keeps.bind (Keeps.call (G.drop name)) (fun _ => Step.Keeps.bind
      (Enduring.forgetWidth lasting_serverHas.enduring name)
      fun _ => Unlisted.dropListings lasting_serverHas.unlisted name) s hs.1
  · refine hs.2.of_change (fun e t hfail => ?_) (fun t hok => ?_) fun _ => ⟨rfl, rfl⟩
    · exact atomic_toAction (P.atomic_drop name) _ t e hfail
    · exact P.drop hs.1 (Call.toAction_eq_ok_iff.1 hok)

/-- **Every call keeps what is held fresh**, whether it succeeds or not. -/
theorem keeps_fresh (R : F.ReadsOnly) (A : F.Atomic) (G : F.Guards I fun _ => True)
    (P : F.Isolates I) : F.adapter.Keeps (F.Fresh I) fun _ => True where
  connect := Step.Keeps.bind (keeps_ask R.ping) fun _ _ hs => ⟨hs.1, hs.2.of_eq rfl rfl⟩
  disconnect _ hs := ⟨hs.1, upToDate_of_nil rfl⟩
  listCollections := Step.Keeps.bind leaves_ensureConnected.keeps fun _ => keeps_ask R.names
  createCollection := lasts_createCollection enduring_fresh fun c name width metric s hs =>
    ⟨Keeps.call (G.create c name width metric) s hs.1, hs.2.of_preserved (by
      show Finds.Preserved F.Finds _ s.server (Call.toAction _ _).2
      rw [toAction_snd]
      exact P.create hs.1) rfl⟩
  describe := lasts_describe enduring_fresh R
  addItems name items _ := fresh_addItems R A G P name items
  getItems name ids := (leaves_getItems R name ids).keeps
  listItems := fresh_listItems R
  updateItems name updates _ := lasts_updateItems R (fresh_addItems R A G P) name updates
  deleteItems := fresh_deleteItems R A G P
  dropCollection := fresh_dropCollection G P
  countItems name :=
    Step.Keeps.bind leaves_ensureConnected.keeps fun _ => keeps_ask (R.count name)
  search := lasts_search enduring_fresh R
  metadata name := (leaves_metadata R name).keeps

end Family

/-! ## What listings show -/

namespace Storage

variable {τ Held Row Handle Condition Fragment : Type} {V : Storage τ Held Row Fragment}
variable {F : Family τ Handle Condition Fragment} {I : τ → Prop} {t t' : τ} {p : String → Prop}

/-- A listing shows what is held of its collection, and the rest of the server has no part
in it. -/
structure Shows (V : Storage τ Held Row Fragment) (F : Family τ Handle Condition Fragment)
    (I : τ → Prop) : Prop where
  held : ∀ {t name filter found}, I t → F.Finds t name filter found → ∃ compiled held,
    F.compiler.compile? filter = .ok compiled ∧ V.held? t (V.serverName name) = some held ∧
      found = compiled.postFilter (V.passing held compiled.native)
  finds : ∀ {t t' name filter found held}, I t → I t' → V.held? t (V.serverName name) = some held →
    V.held? t' (V.serverName name) = some held → F.Finds t name filter found →
      F.Finds t' name filter found
  /-- A page that the server cuts shows what passes. -/
  readPage : ∀ {t name h fragment request page}, I t → F.attach name t = (.ok h, t) →
    F.readPage h fragment request t = (.ok page, t) →
      ∃ held, V.held? t (V.serverName name) = some held ∧
        ∀ item ∈ page.items, item ∈ V.passing held fragment

theorem Shows.preserved (S : V.Shows F I) (hI : I t) (hI' : I t')
    (hkept : ∀ name held, p name → V.held? t (V.serverName name) = some held →
      V.held? t' (V.serverName name) = some held) :
    Session.Finds.Preserved F.Finds p t t' := by
  intro name hp filter found hfound
  obtain ⟨-, held, -, hheld, -⟩ := S.held hI hfound
  exact S.finds hI hI' hheld (hkept name held hp hheld) hfound

theorem Lawful.shows (L : V.Lawful F I)
    (hpage : ∀ {t name h held fragment request page}, V.Opened F I t name h held →
      F.readPage h fragment request t = (.ok page, t) →
        ∀ item ∈ page.items, item ∈ V.passing held fragment) : V.Shows F I where
  readPage := by
    intro t name h fragment request page hI hattach hread
    obtain ⟨held, hheld⟩ := L.held_of_readPage hattach hread
    exact ⟨held, hheld, hpage ⟨hI, hattach, hheld⟩ hread⟩
  held := by
    rintro t name filter found hI ⟨compiled, h, items, hc, hattach, hfetch, rfl⟩
    obtain ⟨held, hheld⟩ := L.held_of_fetchAll hattach hfetch
    exact ⟨compiled, held, hc, hheld, by rw [L.fetchAll_eq ⟨hI, hattach, hheld⟩ hfetch]⟩
  finds := by
    rintro t t' name filter found held hI hI' hheld hheld'
      ⟨compiled, h, items, hc, hattach, hfetch, rfl⟩
    obtain ⟨h', hattach'⟩ := L.attach_of_held hheld'
    have ho : V.Opened F I t name h held := ⟨hI, hattach, hheld⟩
    have ho' : V.Opened F I t' name h' held := ⟨hI', hattach', hheld'⟩
    obtain ⟨items', hfetch'⟩ := L.fetchAll_of_le ho ho' hfetch (Nat.le_refl _)
    refine ⟨compiled, h', items', hc, hattach', hfetch', ?_⟩
    rw [L.fetchAll_eq ho hfetch, L.fetchAll_eq ho' hfetch']

/-- **A page shows what is held and passes when it is asked for**, whether the server cuts it
or it is cut from a listing that was fetched before. -/
theorem Shows.page (S : V.Shows F I) (R : F.ReadsOnly) {s s' : Session τ} (hs : F.Fresh I s)
    {name : String} {request : PageRequest} {filter : Option Filter} {page : Page Item}
    (hlist : F.listItems name request filter s = (.ok page, s')) :
    ∃ compiled held, F.compiler.compile? filter = .ok compiled ∧
      V.held? s.server (V.serverName name) = some held ∧
      ∀ item ∈ page.items, item ∈ V.passing held compiled.native ∧
        compiled.residual.accepts item = true := by
  obtain ⟨compiled, h, hsize, hcompiled, hattach, ⟨hcomplete, hread⟩ | hpage⟩ :=
    Family.listItems_eq_ok R hlist
  · rw [Session.onServer_apply] at hread
    obtain ⟨hread, -⟩ := Prod.mk.inj hread
    obtain ⟨held, hheld, hitems⟩ :=
      S.readPage hs.1 hattach (Prod.ext hread (R.readPage h compiled.native request s.server))
    refine ⟨compiled, held, hcompiled, hheld, fun item hitem => ⟨hitems item hitem, ?_⟩⟩
    -- nothing is left to the client
    rw [Filter.accepts, List.isEmpty_iff.1 hcomplete]
    rfl
  · obtain ⟨found, offset, hfound, rfl⟩ := hs.2.page_of_materialized hsize
      (Family.leaves_fetchListing R)
      (fun _ hfetch => Family.finds_of_fetchListing R hcompiled hattach hfetch) hpage
    obtain ⟨compiled', held, hcompiled', hheld, rfl⟩ := S.held hs.1 hfound
    obtain rfl : compiled' = compiled := Except.ok.inj (hcompiled'.symm.trans hcompiled)
    refine ⟨compiled', held, hcompiled, hheld, fun item hitem => ?_⟩
    exact List.mem_filter.1 (List.mem_of_mem_drop (List.mem_of_mem_take hitem))

end Storage

end VectorBridge
