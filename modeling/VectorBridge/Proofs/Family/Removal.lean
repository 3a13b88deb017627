import Mathlib.Data.List.Nodup
import VectorBridge.Proofs.Family.Storage
import VectorBridge.Proofs.Filter.Compiling
import VectorBridge.Proofs.Rounds
/-!
# Removing what a listing shows

A listing under a filter is read in one of two ways, and a removal by filter is
done in one of two ways. Where the server evaluates the whole filter it cuts the
pages and removes the rows itself. Else the listing is fetched whole, what
passes is kept and cut into pages, and the removal walks through such a listing
and removes the ids that it saw. Either way the drain has seen the rows that
pass, and the removal has selected those; what it selects beyond them is known
from the storage.
-/

namespace VectorBridge

variable {τ Held Row Handle Condition Fragment : Type}

/-- The items that a compiled filter lists of a collection. -/
def Storage.matching (V : Storage τ Held Row Fragment) (held : Held)
    (compiled : CompiledFilter Fragment) : List Item :=
  compiled.postFilter (V.passing held compiled.native)

/-- Whether a removal by a compiled filter alone selects a row. -/
def Storage.removes (V : Storage τ Held Row Fragment) (held : Held)
    (compiled : CompiledFilter Fragment) (row : Row) : Bool :=
  if compiled.isComplete then V.admits compiled.native row
  else V.selects held ((V.matching held compiled).map (·.id)) row

/-- The items that a removal by a compiled filter alone takes beyond those of the
ids that the filter lists. -/
def Storage.mistaken (V : Storage τ Held Row Fragment) (held : Held)
    (compiled : CompiledFilter Fragment) : List Item :=
  ((V.rows held).filter fun row => V.removes held compiled row &&
    !((V.matching held compiled).map (·.id)).contains (V.itemOf held row).id).map (V.itemOf held)

/-- A collection without the items of the ids of some items. -/
def Storage.without (V : Storage τ Held Row Fragment) (held : Held) (gone : List Item) : Held :=
  V.keeping held fun row => !(gone.map (·.id)).contains (V.itemOf held row).id

namespace Family

open Session

variable {F : Family τ Handle Condition Fragment} {V : Storage τ Held Row Fragment}
variable {I : τ → Prop} {s s' : Session τ} {name : String} {f : Filter}
variable {compiled : CompiledFilter Fragment} {h : Handle} {held : Held}

/-! ## One page -/

/-- A page of an opened collection, cut by the server or from the listing that
is fetched whole. -/
def listing (F : Family τ Handle Condition Fragment) (h : Handle) (name : String) (f : Filter)
    (compiled : CompiledFilter Fragment) (request : PageRequest) :
    Action (Session τ) (Page Item) :=
  if compiled.isComplete then onServer (F.readPage h compiled.native request)
  else
    materialized (listingKey name (some f)) request do
      pure (compiled.postFilter (← onServer (F.fetchAll h compiled.native)))

/-- Opening a collection leaves the session alone. -/
theorem call_attach_eq_ok_iff (L : V.Lawful F I) :
    call (F.attach name) s = (.ok h, s') ↔ F.attach name s.server = (.ok h, s.server) ∧ s' = s := by
  rw [call_eq_ok_iff]
  constructor
  · rintro ⟨t, ht, rfl⟩
    obtain rfl : t = s.server := by rw [← L.reads.attach name s.server, ht]
    exact ⟨ht, rfl⟩
  · rintro ⟨ht, rfl⟩
    exact ⟨_, ht, rfl⟩

theorem attach_unique {t : τ} {h h' : Handle} (hattach : F.attach name t = (.ok h, t))
    (hattach' : F.attach name t = (.ok h', t)) : h = h' := by
  rw [hattach] at hattach'
  cases hattach'
  rfl

/-- **A page is listed exactly when** there is a connection, something is asked
for, the collection can be opened, and the page can be cut. -/
theorem listItems_eq_ok_iff (L : V.Lawful F I) (hc : F.compiler.compile f = .ok compiled)
    {request : PageRequest} {page : Page Item} :
    F.listItems name request (some f) s = (.ok page, s') ↔
      s.connected = true ∧ 0 < request.size ∧
        ∃ h, F.attach name s.server = (.ok h, s.server) ∧
          F.listing h name f compiled request s = (.ok page, s') := by
  have hc' : F.compiler.compile? (some f) = .ok compiled := hc
  rw [listItems, ensureConnected_bind_eq_ok_iff, Action.ofResult_bind_eq_ok_iff]
  refine and_congr_right fun _ => ?_
  -- the checks come in the order of the conjuncts; opening changes nothing
  constructor
  · rintro ⟨_, hsize, hrun⟩
    rw [hc', Step.bind_of_ok (Action.ofResult_apply _ s), Step.bind_eq_ok_iff] at hrun
    obtain ⟨h, s₁, hattach, hpage⟩ := hrun
    obtain ⟨hattach, rfl⟩ := (call_attach_eq_ok_iff L).1 hattach
    exact ⟨PageRequest.validate_eq_ok_iff.1 hsize, h, hattach, hpage⟩
  · rintro ⟨hsize, h, hattach, hpage⟩
    refine ⟨(), PageRequest.validate_eq_ok_iff.2 hsize, ?_⟩
    rw [hc', Step.bind_of_ok (Action.ofResult_apply _ s), Step.bind_eq_ok_iff]
    exact ⟨h, s, (call_attach_eq_ok_iff L).2 ⟨hattach, rfl⟩, hpage⟩

/-- What is listed under a filter has a filter that compiles. -/
theorem compile_of_listItems {request : PageRequest} {page : Page Item}
    (hlist : F.listItems name request (some f) s = (.ok page, s')) :
    ∃ compiled, F.compiler.compile f = .ok compiled := by
  rw [listItems, ensureConnected_bind_eq_ok_iff, Action.ofResult_bind_eq_ok_iff] at hlist
  obtain ⟨-, -, -, hlist⟩ := hlist
  obtain ⟨compiled, hc, -⟩ := Action.ofResult_bind_eq_ok_iff.1 hlist
  exact ⟨compiled, hc⟩

/-! ## Draining -/

/-- Where the server cuts the pages, a drain is one of the server's pages, and
nothing changes. -/
theorem drains_of_complete (L : V.Lawful F I) (hc : F.compiler.compile f = .ok compiled)
    (hcomplete : compiled.isComplete = true) {token : Option PageToken} {sizes : List Nat}
    {items : List Item} (hdrain : Drains (F.listItems name · (some f)) token sizes s items s') :
    s' = s ∧ s.connected = true ∧ ∃ h, F.attach name s.server = (.ok h, s.server) ∧
      Drains (F.readPage h compiled.native) token sizes s.server items s.server := by
  -- one page of a session is one page of its server
  have hpage : ∀ {request : PageRequest} {page : Page Item} {h : Handle} {s s' : Session τ},
      F.listing h name f compiled request s = (.ok page, s') →
        s' = s ∧ F.readPage h compiled.native request s.server = (.ok page, s.server) := by
    intro request page h s s' hlist
    rw [listing, if_pos hcomplete, onServer_apply] at hlist
    have hsame := L.reads.readPage h compiled.native request s.server
    obtain ⟨hpage, rfl⟩ := Prod.mk.inj hlist
    rw [hsame]
    exact ⟨rfl, Prod.ext hpage hsame⟩
  induction hdrain with
  | last hlist hnext =>
    obtain ⟨hconn, -, h, hattach, hlist⟩ := (listItems_eq_ok_iff L hc).1 hlist
    obtain ⟨rfl, hread⟩ := hpage hlist
    exact ⟨rfl, hconn, h, hattach, .last hread hnext⟩
  | more hlist hnext _ ih =>
    obtain ⟨hconn, -, h, hattach, hlist⟩ := (listItems_eq_ok_iff L hc).1 hlist
    obtain ⟨rfl, hread⟩ := hpage hlist
    obtain ⟨rfl, -, h', hattach', hrest⟩ := ih
    obtain rfl := attach_unique hattach hattach'
    exact ⟨rfl, hconn, h, hattach, .more hread hnext hrest⟩

section Incomplete

variable {all : List Item} {size : Nat}

/-- What is fetched for a listing. -/
theorem fetch_apply (hall : F.fetchAll h compiled.native s.server = (.ok all, s.server)) :
    (do pure (compiled.postFilter (← onServer (F.fetchAll h compiled.native))) :
      Action (Session τ) (List Item)) s = (.ok (compiled.postFilter all), s) := by
  have hread : onServer (F.fetchAll h compiled.native) s = (.ok all, s) := by
    rw [onServer_apply, hall]
  rw [Step.bind_of_ok hread]
  rfl

/-- A first page comes from a fetch that succeeded. -/
theorem fetchAll_of_listing (L : V.Lawful F I) (hcomplete : compiled.isComplete = false)
    {page : Page Item} (hlist : F.listing h name f compiled ⟨none, size⟩ s = (.ok page, s')) :
    ∃ all, F.fetchAll h compiled.native s.server = (.ok all, s.server) := by
  rw [listing, hcomplete, if_neg Bool.false_ne_true] at hlist
  obtain ⟨found, s₁, hfetch⟩ := materialized_first_eq_ok hlist
  obtain ⟨all, s₂, hall, -⟩ := Step.bind_eq_ok_iff.1 hfetch
  rw [onServer_apply] at hall
  exact ⟨all, Prod.ext (Prod.mk.inj hall).1 (L.reads.fetchAll h compiled.native s.server)⟩

theorem listing_first (hcomplete : compiled.isComplete = false) (hsize : 0 < size)
    (hall : F.fetchAll h compiled.native s.server = (.ok all, s.server)) :
    F.listing h name f compiled ⟨none, size⟩ s =
      (.ok (Page.slice (compiled.postFilter all) 0 size),
        { s with
          listings :=
            Keyed.insert (listingKey name (some f)) (compiled.postFilter all) s.listings }) := by
  rw [listing, hcomplete, if_neg Bool.false_ne_true]
  exact materialized_first hsize (fetch_apply hall)

/-- Where the listing is fetched whole, a drain is what was fetched and passes
the client's part, and only the listings change. -/
theorem drains_of_incomplete (L : V.Lawful F I) (hc : F.compiler.compile f = .ok compiled)
    (hcomplete : compiled.isComplete = false) {sizes : List Nat} {items : List Item}
    (hdrain : Drains (F.listItems name · (some f)) none sizes s items s') :
    ∃ h all, F.attach name s.server = (.ok h, s.server) ∧
      F.fetchAll h compiled.native s.server = (.ok all, s.server) ∧
      items = compiled.postFilter all ∧
      Walking s.server (listingKey name (some f)) (compiled.postFilter all) s' := by
  obtain ⟨size, page, s₁, hfirst⟩ := hdrain.first
  obtain ⟨hconn, -, h, hattach, hlist⟩ := (listItems_eq_ok_iff L hc).1 hfirst
  obtain ⟨all, hall⟩ := fetchAll_of_listing L hcomplete hlist
  refine ⟨h, all, hattach, hall, drains_materialized (fun hserver hlist => ?_) (fetch_apply hall)
    hdrain⟩
  obtain ⟨hconn, hsize, h', hattach', hlist⟩ := (listItems_eq_ok_iff L hc).1 hlist
  rw [hserver] at hattach'
  obtain rfl := attach_unique hattach hattach'
  rw [listing, hcomplete, if_neg Bool.false_ne_true] at hlist
  exact ⟨hconn, hsize, hlist⟩

end Incomplete

/-- **A drain sees what passes**: the rows that satisfy the server's part, as
items that pass the client's. The server is left as it was. -/
theorem drains_eq_matching (L : V.Lawful F I) (hI : I s.server)
    (hc : F.compiler.compile f = .ok compiled) {sizes : List Nat} {items : List Item}
    (hdrain : Drains (F.listItems name · (some f)) none sizes s items s') :
    ∃ h held, V.Opened F I s.server name h held ∧ items = V.matching held compiled ∧
      s'.server = s.server ∧ s'.connected = true ∧
      (compiled.isComplete = false →
        ∃ all, F.fetchAll h compiled.native s.server = (.ok all, s.server)) := by
  cases hcomplete : compiled.isComplete with
  | true =>
    obtain ⟨rfl, hconn, h, hattach, hpages⟩ := drains_of_complete L hc hcomplete hdrain
    obtain ⟨held, hheld⟩ : ∃ held, V.held? s'.server (V.serverName name) = some held := by
      obtain ⟨size, page, t, hread⟩ := hpages.first
      exact L.held_of_readPage hattach hread
    have ho : V.Opened F I s'.server name h held := ⟨hI, hattach, hheld⟩
    refine ⟨h, held, ho, ?_, rfl, hconn, fun h => by cases h⟩
    -- the client's part is empty, so what the server passes is what is listed
    have hnone : compiled.residual.clauses = [] := List.isEmpty_iff.1 hcomplete
    rw [L.drains_readPage ho hpages, Storage.matching, CompiledFilter.postFilter,
      List.filter_eq_self.2 fun item _ => by rw [Filter.accepts, hnone]; rfl]
  | false =>
    obtain ⟨h, all, hattach, hall, hitems, hwalk⟩ := drains_of_incomplete L hc hcomplete hdrain
    obtain ⟨held, hheld⟩ := L.held_of_fetchAll hattach hall
    have ho : V.Opened F I s.server name h held := ⟨hI, hattach, hheld⟩
    refine ⟨h, held, ho, ?_, hwalk.server, hwalk.connected, fun _ => ⟨all, hall⟩⟩
    rw [hitems, L.fetchAll_eq ho hall, Storage.matching]

/-! ## Walking for ids -/

/-- A walk for ids through the listing of a collection under a filter, which comes to an end
after the requests `later`. -/
structure FindsIds (F : Family τ Handle Condition Fragment) (name : String) (f : Filter)
    (s : Session τ) (later : List PageRequest) (found : Result (List String)) (s' : Session τ) :
    Prop where
  rounds : Rounds (Adapter.findPage (F.listItems name · (some f)))
    (.first PageRequest.defaultSize) later s (found, s')
  /-- It is not cut short. -/
  complete : F.filteredIds name [] f s = (found, s')

/-- The search for ids is the walk, when the bound on its pages leaves room for it. -/
theorem filteredIds_of_rounds {later : List PageRequest}
    {outcome : Result (List String) × Session τ}
    (hrounds : Rounds (Adapter.findPage (F.listItems name · (some f)))
      (.first PageRequest.defaultSize) later s outcome)
    (hfuel : ∀ {page s₁}, F.listItems name (.first PageRequest.defaultSize) (some f) s =
      (.ok page, s₁) → later.length ≤ F.rounds s₁.server +
        ((Keyed.get? (listingKey name (some f)) s₁.listings).getD []).length) :
    F.filteredIds name [] f s = outcome := by
  rw [filteredIds, List.isEmpty_nil, if_pos rfl]
  rcases hlist : F.listItems name (.first PageRequest.defaultSize) (some f) s with ⟨e | page, s₁⟩
  · -- a walk that fails at its first page needs room for one page
    have hone := drain_of_rounds hrounds (Nat.lt_succ_self later.length)
    rw [Adapter.drain, Step.bind_of_error hlist] at hone
    rw [Step.bind_of_error hlist, ← hone]
  · have hwalk := drain_of_rounds hrounds (Nat.lt_succ_of_le (hfuel hlist))
    rw [Adapter.drain, Step.bind_of_ok hlist] at hwalk
    rw [Step.bind_of_ok hlist, ← hwalk]
    cases page.next with
    | none => rfl
    | some token => exact Step.bind_of_ok (Step.get_apply s₁) _

/-- A listing with a connection, a size, a filter that compiles and a collection that can be
opened is a page of the collection. -/
theorem listItems_eq_listing (hconn : s.connected = true) {request : PageRequest}
    (hsize : 0 < request.size) (hc : F.compiler.compile f = .ok compiled)
    (hattach : F.attach name s.server = (.ok h, s.server)) :
    F.listItems name request (some f) s = F.listing h name f compiled request s := by
  have hc' : F.compiler.compile? (some f) = .ok compiled := hc
  rw [listItems, ensureConnected_bind hconn,
    Action.ofResult_bind_of_ok (PageRequest.validate_eq_ok_iff.2 hsize),
    Action.ofResult_bind_of_ok hc', Step.bind_of_ok (call_of_ok hattach)]
  rfl

/-- Where the listing is fetched whole, its pages are cut from what is fetched. -/
theorem listItems_eq_materialized (hc : F.compiler.compile f = .ok compiled)
    (hcomplete : compiled.isComplete = false) (hconn : s.connected = true)
    (hattach : F.attach name s.server = (.ok h, s.server)) {request : PageRequest}
    (hsize : 0 < request.size) : F.listItems name request (some f) s =
      materialized (listingKey name (some f)) request
        (do pure (compiled.postFilter (← onServer (F.fetchAll h compiled.native)))) s := by
  rw [listItems_eq_listing hconn hsize hc hattach, listing, hcomplete, if_neg Bool.false_ne_true]

/-- A walk for ids finds all that is fetched and passes the client's part, and leaves the
server alone. -/
theorem findsIds_of_fetched (hc : F.compiler.compile f = .ok compiled)
    (hcomplete : compiled.isComplete = false) (hconn : s.connected = true)
    (hattach : F.attach name s.server = (.ok h, s.server)) {all : List Item}
    (hall : F.fetchAll h compiled.native s.server = (.ok all, s.server)) :
    ∃ later s₁, F.FindsIds name f s later (.ok ((compiled.postFilter all).map (·.id))) s₁ ∧
      s₁.server = s.server ∧ s₁.connected = true := by
  have hpage : ∀ {request : PageRequest} {s₁ : Session τ}, s₁.server = s.server →
      s₁.connected = s.connected → 0 < request.size →
        F.listItems name request (some f) s₁ = materialized (listingKey name (some f)) request
          (do pure (compiled.postFilter (← onServer (F.fetchAll h compiled.native)))) s₁ :=
    fun hserver hstill hsize => listItems_eq_materialized hc hcomplete (hstill.trans hconn)
      (by rw [hserver, hattach]) hsize
  obtain ⟨later, hrounds, hlength⟩ := exists_rounds_materialized hpage (fetch_apply hall)
  refine ⟨later, _, ⟨hrounds, filteredIds_of_rounds hrounds fun {page s₁} hlist => ?_⟩, rfl, hconn⟩
  -- a walk may read as many pages as there are items in the listing that is kept
  have hfirst : F.listItems name (.first PageRequest.defaultSize) (some f) s = _ :=
    (hpage rfl rfl (by decide)).trans (materialized_first (by decide) (fetch_apply hall))
  obtain ⟨-, rfl⟩ := Prod.mk.inj (hlist.symm.trans hfirst)
  rw [Keyed.get?_insert_self, Option.getD_some]
  omega

/-! ## Removing -/

/-- The steps around a call that removes rows. -/
theorem erase_ok (L : V.Lawful F I) (hattach : F.attach name s.server = (.ok h, s.server))
    {erase : Handle → Call τ Unit}
    (hrun : (do
      let h ← call (F.attach name)
      call (erase h)
      dropListings name) s = (.ok (), s')) :
    erase h s.server = (.ok (), s'.server) ∧ s'.connected = s.connected := by
  rw [Step.bind_of_ok ((call_attach_eq_ok_iff L).2 ⟨hattach, rfl⟩), Step.bind_eq_ok_iff] at hrun
  obtain ⟨u, s₁, hcall, hdrop⟩ := hrun
  obtain ⟨t, herase, rfl⟩ := call_eq_ok_iff.1 hcall
  cases hdrop
  exact ⟨herase, rfl⟩

/-- Removing ids leaves out the rows that they select. -/
theorem deleteIds_ok (L : V.Lawful F I) (ho : V.Opened F I s.server name h held)
    {ids : List String} (hdel : F.deleteIds name ids s = (.ok (), s')) :
    s'.connected = s.connected ∧ V.Changed s.server s'.server (V.serverName name)
      (V.keeping held fun row => !V.selects held ids row) := by
  rw [deleteIds] at hdel
  split at hdel
  · rename_i hempty
    obtain rfl := List.isEmpty_iff.1 hempty
    cases hdel
    refine ⟨rfl, ?_, fun _ _ => rfl⟩
    -- no call is made for no ids, and no ids select no rows
    have hall : (V.rows held).filter (fun row => !V.selects held [] row) = V.rows held :=
      List.filter_eq_self.2 fun row _ => by rw [L.selects_nil]; rfl
    rw [Storage.keeping, hall, L.withRows_rows]
    exact ho.held
  · obtain ⟨herase, hconn⟩ := erase_ok L ho.attach hdel
    exact ⟨hconn, L.eraseIds_ok ho herase⟩

/-- **A removal by filter leaves out what it selects**, and changes no other
collection. -/
theorem deleteItems_ok (L : V.Lawful F I) (ho : V.Opened F I s.server name h held)
    (hc : F.compiler.compile f = .ok compiled) (hf : f.isEmpty = false)
    (hdel : F.deleteItems name [] (some f) s = (.ok (), s')) :
    s'.connected = true ∧ V.Changed s.server s'.server (V.serverName name)
      (V.keeping held fun row => !V.removes held compiled row) := by
  have hsel : selective (some f) = some f := by simp [selective, hf]
  rw [deleteItems, ensureConnected_bind_eq_ok_iff, hsel] at hdel
  obtain ⟨hconn, hdel⟩ := hdel
  simp only [hc] at hdel
  rw [Step.bind_of_ok (Action.ofResult_apply _ s)] at hdel
  cases hcomplete : compiled.isComplete with
  | true =>
    obtain ⟨native, hnative⟩ := FilterCompiler.native_of_isComplete hc hcomplete hf
    rw [hnative, hcomplete] at hdel
    obtain ⟨herase, hconn'⟩ := erase_ok L ho.attach hdel
    simp only [Storage.removes, hcomplete, if_true, hnative, Storage.admits, Option.all_some]
    exact ⟨hconn'.trans hconn, L.eraseWhere_ok ho herase⟩
  | false =>
    have hdel' : (F.filteredIds name [] f >>= fun found => F.deleteIds name found) s =
        (.ok (), s') := by
      rw [hcomplete, Bool.and_false] at hdel
      cases hnative : compiled.native <;> rw [hnative] at hdel <;> exact hdel
    rw [Step.bind_eq_ok_iff] at hdel'
    obtain ⟨found, s₁, hfound, hdel⟩ := hdel'
    -- the ids come from a listing that was fetched whole
    obtain ⟨all, hall⟩ : ∃ all, F.fetchAll h compiled.native s.server = (.ok all, s.server) := by
      rw [filteredIds, List.isEmpty_nil, if_pos rfl, Step.bind_eq_ok_iff] at hfound
      obtain ⟨page, s₂, hlist, -⟩ := hfound
      obtain ⟨-, -, h', hattach, hlist⟩ := (listItems_eq_ok_iff L hc).1 hlist
      obtain rfl := attach_unique ho.attach hattach
      exact fetchAll_of_listing L hcomplete hlist
    obtain ⟨later, s₃, hfinds, hserver, hconn₃⟩ :=
      findsIds_of_fetched hc hcomplete hconn ho.attach hall
    obtain ⟨hids, rfl⟩ := Prod.mk.inj (hfinds.complete.symm.trans hfound)
    obtain rfl := Except.ok.inj hids
    -- the walk has left the server alone, so the ids meet the rows they were read from
    have ho₃ : V.Opened F I s₃.server name h held := by rw [hserver]; exact ho
    obtain ⟨hconn', hchanged⟩ := deleteIds_ok L ho₃ hdel
    rw [hserver] at hchanged
    have hremoves : V.removes held compiled =
        V.selects held ((compiled.postFilter all).map (·.id)) := by
      funext row
      rw [Storage.removes, hcomplete, if_neg Bool.false_ne_true, Storage.matching,
        L.fetchAll_eq ho hall]
    rw [hremoves]
    exact ⟨hconn'.trans hconn₃, hchanged⟩

/-! ## The rows that are left -/

/-- Rows with one id are one row. -/
theorem eq_of_id (L : V.Lawful F I) (ho : V.Opened F I s.server name h held) {row row' : Row}
    (hrow : row ∈ V.rows held) (hrow' : row' ∈ V.rows held)
    (hid : (V.itemOf held row).id = (V.itemOf held row').id) : row = row' := by
  have hnodup := L.nodup ho.inv ho.held
  rw [Storage.items, List.map_map] at hnodup
  exact List.inj_on_of_nodup_map hnodup hrow hrow' hid

/-- A row whose item was seen is removed. -/
theorem removes_of_mem (L : V.Lawful F I) (ho : V.Opened F I s.server name h held) {row : Row}
    (hrow : row ∈ V.rows held)
    (hid : (V.itemOf held row).id ∈ (V.matching held compiled).map (·.id)) :
    V.removes held compiled row = true := by
  rw [Storage.removes]
  split
  · -- the row of the seen item is this one, as ids are distinct
    obtain ⟨item, hitem, heq⟩ := List.mem_map.1 hid
    obtain ⟨row', hrow', rfl⟩ := List.mem_map.1 (List.mem_filter.1 hitem).1
    obtain ⟨hmem, hadmits⟩ := List.mem_filter.1 hrow'
    obtain rfl := eq_of_id L ho hmem hrow heq
    exact hadmits
  · exact L.selects_of_mem ho.inv ho.held hrow hid

/-- The rows that are removed are those of the items that were seen, and the
mistaken ones. -/
theorem keeping_removes (L : V.Lawful F I) (ho : V.Opened F I s.server name h held) :
    (V.keeping held fun row => !V.removes held compiled row) =
      V.without held (V.matching held compiled ++ V.mistaken held compiled) := by
  rw [Storage.without, Storage.keeping, Storage.keeping]
  congr 1
  refine List.filter_congr fun row hrow => ?_
  congr 1
  rw [Bool.eq_iff_iff, List.contains_iff_mem, List.map_append, List.mem_append]
  constructor
  · intro hremoves
    by_cases hseen : (V.itemOf held row).id ∈ (V.matching held compiled).map (·.id)
    · exact .inl hseen
    · refine .inr (List.mem_map_of_mem (List.mem_map_of_mem (List.mem_filter.2 ⟨hrow, ?_⟩)))
      rw [hremoves, Bool.true_and, Bool.not_eq_true', List.contains_eq_mem, decide_eq_false hseen]
  · rintro (hseen | hmistaken)
    · exact removes_of_mem L ho hrow hseen
    · obtain ⟨item, hitem, heq⟩ := List.mem_map.1 hmistaken
      obtain ⟨row', hrow', rfl⟩ := List.mem_map.1 hitem
      obtain ⟨hmem, hremoves⟩ := List.mem_filter.1 hrow'
      obtain rfl := eq_of_id L ho hmem hrow heq
      exact (Bool.and_eq_true_iff.1 hremoves).1

/-- Where the server removes what passes, nothing is mistaken. -/
theorem mistaken_of_complete (hcomplete : compiled.isComplete = true) :
    V.mistaken held compiled = [] := by
  have hresidual : compiled.residual.clauses = [] := List.isEmpty_iff.1 hcomplete
  rw [Storage.mistaken, List.map_eq_nil_iff, List.filter_eq_nil_iff]
  intro row hrow hboth
  obtain ⟨hremoves, hunseen⟩ := Bool.and_eq_true_iff.1 hboth
  rw [Storage.removes, if_pos hcomplete] at hremoves
  have hseen : V.itemOf held row ∈ V.matching held compiled := by
    refine List.mem_filter.2 ⟨List.mem_map_of_mem (List.mem_filter.2 ⟨hrow, hremoves⟩), ?_⟩
    rw [Filter.accepts, hresidual]
    rfl
  rw [List.contains_iff_mem.2 (List.mem_map_of_mem hseen)] at hunseen
  cases hunseen

/-- What is listed is there. -/
theorem matching_sublist (V : Storage τ Held Row Fragment) (held : Held)
    (compiled : CompiledFilter Fragment) : (V.matching held compiled).Sublist (V.items held) :=
  List.filter_sublist.trans (List.filter_sublist.map _)

/-- Where a removal of the ids of items selects the rows of these items alone,
nothing is mistaken. -/
theorem mistaken_of_exact
    (hexact : ∀ items : List Item, items ⊆ V.items held → ∀ row ∈ V.rows held,
      V.selects held (items.map (·.id)) row = true → (V.itemOf held row).id ∈ items.map (·.id)) :
    V.mistaken held compiled = [] := by
  cases hcomplete : compiled.isComplete with
  | true => exact mistaken_of_complete hcomplete
  | false =>
    rw [Storage.mistaken, List.map_eq_nil_iff, List.filter_eq_nil_iff]
    intro row hrow hboth
    obtain ⟨hremoves, hunseen⟩ := Bool.and_eq_true_iff.1 hboth
    rw [Storage.removes, hcomplete, if_neg Bool.false_ne_true] at hremoves
    have hseen := hexact _ (matching_sublist V held compiled).subset row hrow hremoves
    rw [List.contains_iff_mem.2 hseen] at hunseen
    cases hunseen

/-- After a removal nothing is left that passes. -/
theorem matching_keeping (L : V.Lawful F I) (ho : V.Opened F I s.server name h held) :
    V.matching (V.keeping held fun row => !V.removes held compiled row) compiled = [] := by
  rw [Storage.matching, CompiledFilter.postFilter, List.filter_eq_nil_iff]
  intro item hitem hacc
  rw [Storage.passing, Storage.keeping, L.rows_withRows, L.itemOf_withRows] at hitem
  obtain ⟨row, hrow, rfl⟩ := List.mem_map.1 hitem
  obtain ⟨hrow, hadmits⟩ := List.mem_filter.1 hrow
  obtain ⟨hrow, hkept⟩ := List.mem_filter.1 hrow
  have hseen : V.itemOf held row ∈ V.matching held compiled :=
    List.mem_filter.2 ⟨List.mem_map_of_mem (List.mem_filter.2 ⟨hrow, hadmits⟩), hacc⟩
  rw [removes_of_mem L ho hrow (List.mem_map_of_mem hseen)] at hkept
  cases hkept

theorem length_passing_keeping_le (L : V.Lawful F I) (p : Row → Bool)
    (fragment : Option Fragment) :
    (V.passing (V.keeping held p) fragment).length ≤ (V.passing held fragment).length := by
  rw [Storage.passing, Storage.passing, Storage.keeping, L.rows_withRows, L.itemOf_withRows,
    List.length_map, List.length_map]
  exact (List.Sublist.filter _ List.filter_sublist).length_le

/-- A listing of nothing is drained by its first page. -/
theorem drains_nil (L : V.Lawful F I) (hc : F.compiler.compile f = .ok compiled)
    (hconn : s.connected = true) (ho : V.Opened F I s.server name h held)
    (hnone : V.matching held compiled = [])
    (hfetch : compiled.isComplete = false →
      ∃ all, F.fetchAll h compiled.native s.server = (.ok all, s.server)) :
    ∃ s', Drains (F.listItems name · (some f)) none [1] s [] s' := by
  cases hcomplete : compiled.isComplete with
  | true =>
    have hresidual : compiled.residual.clauses = [] := List.isEmpty_iff.1 hcomplete
    rw [Storage.matching, CompiledFilter.postFilter,
      List.filter_eq_self.2 fun item _ => by rw [Filter.accepts, hresidual]; rfl] at hnone
    have hread := L.readPage_of_nil ho hnone
    refine ⟨s, .single ?_⟩
    refine (listItems_eq_ok_iff L hc).2 ⟨hconn, Nat.one_pos, h, ho.attach, ?_⟩
    rw [listing, if_pos hcomplete, onServer_apply]
    exact congrArg (fun r => (r.1, { s with server := r.2 })) hread
  | false =>
    obtain ⟨all, hall⟩ := hfetch hcomplete
    -- the one page has nothing on it and promises no other
    have hfound : compiled.postFilter all = [] := by rw [L.fetchAll_eq ho hall]; exact hnone
    have hlist := (listItems_eq_ok_iff L hc).2 ⟨hconn, Nat.one_pos, h, ho.attach,
      listing_first hcomplete Nat.one_pos hall⟩
    rw [hfound] at hlist
    exact ⟨_, .single hlist⟩

/-- **A removal by filter is the complement of the listing.** After a drain and a
removal under the same filter, the collection lacks the items that the drain has
seen and those mistaken for them. -/
theorem removed_of_drain {plain : Metadata → Prop} (L : V.Lawful F I) (G : F.Guards I plain)
    (hI : I s.server) (hf : f.isEmpty = false) {sizes : List Nat} {items : List Item}
    {s₁ s₂ : Session τ}
    (hdrain : Drains (F.listItems name · (some f)) none sizes s items s₁)
    (hdel : F.deleteItems name [] (some f) s₁ = (.ok (), s₂)) :
    ∃ compiled held, F.compiler.compile f = .ok compiled ∧ items = V.matching held compiled ∧
      Removed (F.listItems name · (some f)) (fun s => V.held? s.server) s s₂ (V.serverName name)
        held (V.without held (items ++ V.mistaken held compiled)) := by
  obtain ⟨size, page, s₀, hfirst⟩ := hdrain.first
  obtain ⟨compiled, hc⟩ := compile_of_listItems hfirst
  obtain ⟨h, held, ho, rfl, hserver, -, hfetch⟩ := drains_eq_matching L hI hc hdrain
  have ho₁ : V.Opened F I s₁.server name h held := by rw [hserver]; exact ho
  obtain ⟨hconn₂, hchanged⟩ := deleteItems_ok L ho₁ hc hf hdel
  have hI₂ : I s₂.server := by
    have hkept := keeps_deleteItems (I := I) L.reads G name [] (some f) s₁ ho₁.inv
    rwa [hdel] at hkept
  rw [hserver] at hchanged
  -- nothing that is left passes, so a second drain has nothing to show
  have hnone : V.matching (V.keeping held fun row => !V.removes held compiled row) compiled = [] :=
    matching_keeping L ho
  obtain ⟨h₂, hattach₂⟩ := L.attach_of_held hchanged.here
  have ho₂ : V.Opened F I s₂.server name h₂ _ := ⟨hI₂, hattach₂, hchanged.here⟩
  refine ⟨compiled, held, hc, rfl, ?_⟩
  rw [← keeping_removes L ho]
  refine ⟨ho.held, hchanged.here, hchanged.others, fun hdrain' => ?_, ?_⟩
  · obtain ⟨h', held', ho', rfl, -⟩ := drains_eq_matching L hI₂ hc hdrain'
    obtain rfl := Option.some.inj (hchanged.here.symm.trans ho'.held)
    exact hnone
  · refine drains_nil L hc hconn₂ ho₂ hnone fun hcomplete => ?_
    obtain ⟨all, hall⟩ := hfetch hcomplete
    exact L.fetchAll_of_le ho ho₂ hall (length_passing_keeping_le L _ _)

end Family

end VectorBridge
