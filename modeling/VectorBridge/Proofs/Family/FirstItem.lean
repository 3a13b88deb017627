import VectorBridge.Proofs.Family.Storage
import VectorBridge.Proofs.Identifier
/-!
# The first item of a collection

An item that is added to an empty collection is all that the collection shows
afterwards, whatever its metadata. Its id is read off the row it is written as,
from the key or from beside it. A listing without a filter asks the server for
its pages and for nothing else, so what a drain shows is what the pages show.
-/

namespace VectorBridge

variable {τ Held Row Handle Condition Fragment : Type}

/-- A collection shows the first item that is written to it, and shows it under its
id exactly when the id survives; `kept` says which ids a collection keeps beside
their keys. -/
structure Storage.ShowsFirst (V : Storage τ Held Row Fragment)
    (F : Family τ Handle Condition Fragment) (I : τ → Prop) (kept : Held → String → Bool) :
    Prop where
  attach_of_held : ∀ {t name held}, V.held? t (V.serverName name) = some held →
    ∃ h, F.attach name t = (.ok h, t)
  write : ∀ {t t' name h held item}, V.Opened F I t name h held → V.items held = [] →
    F.write h [item] t = (.ok (), t') →
      ∃ held' shown, V.held? t' (V.serverName name) = some held' ∧ V.items held' = [shown] ∧
        (shown.id = item.id ↔ item.IdSurvives (kept held item.id))
  drains_readPage : ∀ {t name h held shown}, V.Opened F I t name h held →
    V.items held = [shown] → ∀ {sizes items t'},
      Drains (F.readPage h none) none sizes t items t' → items = [shown]
  readPage : ∀ {t name h held shown}, V.Opened F I t name h held → V.items held = [shown] →
    F.readPage h none (.first 2) t = (.ok ⟨[shown], none⟩, t)

namespace Family

open Session

variable {F : Family τ Handle Condition Fragment} {V : Storage τ Held Row Fragment}
variable {I : τ → Prop} {kept : Held → String → Bool} {s s' : Session τ} {name : String}
variable {h : Handle} {held : Held}

/-! ## Listing without a filter -/

/-- A page of all items is a page of the server's. -/
theorem listItems_none_eq_ok_iff (hconn : s.connected = true)
    (hattach : F.attach name s.server = (.ok h, s.server)) {request : PageRequest}
    {page : Page Item} :
    F.listItems name request none s = (.ok page, s') ↔
      0 < request.size ∧ onServer (F.readPage h none request) s = (.ok page, s') := by
  have hopen : call (F.attach name) s = (.ok h, s) := call_of_ok hattach
  rw [listItems, ensureConnected_bind_eq_ok_iff, Action.ofResult_bind_eq_ok_iff]
  constructor
  · rintro ⟨-, _, hsize, hrun⟩
    rw [FilterCompiler.compile?, Step.bind_of_ok (Action.ofResult_apply _ s),
      Step.bind_of_ok hopen] at hrun
    exact ⟨PageRequest.validate_eq_ok_iff.1 hsize, hrun⟩
  · rintro ⟨hsize, hrun⟩
    refine ⟨hconn, (), PageRequest.validate_eq_ok_iff.2 hsize, ?_⟩
    rw [FilterCompiler.compile?, Step.bind_of_ok (Action.ofResult_apply _ s),
      Step.bind_of_ok hopen]
    exact hrun

/-- A drain of all items is a drain of the server's pages. -/
theorem drains_of_unfiltered (R : F.ReadsOnly) (hconn : s.connected = true)
    (hattach : F.attach name s.server = (.ok h, s.server)) {token : Option PageToken}
    {sizes : List Nat} {items : List Item}
    (hdrain : Drains (F.listItems name · none) token sizes s items s') :
    Drains (F.readPage h none) token sizes s.server items s.server := by
  -- a page leaves the server, and so the session, as it was
  have hpage : ∀ {request : PageRequest} {page : Page Item} {s s' : Session τ},
      onServer (F.readPage h none request) s = (.ok page, s') →
        s' = s ∧ F.readPage h none request s.server = (.ok page, s.server) := by
    intro request page s s' hread
    have hsame : (F.readPage h none request s.server).2 = s.server := R.readPage h none request _
    rw [onServer_apply, hsame] at hread
    obtain ⟨hok, rfl⟩ := Prod.mk.inj hread
    exact ⟨rfl, Prod.ext hok hsame⟩
  induction hdrain with
  | last hlist hnext =>
    obtain ⟨-, hread⟩ := (listItems_none_eq_ok_iff hconn hattach).1 hlist
    obtain ⟨rfl, hread⟩ := hpage hread
    exact .last hread hnext
  | more hlist hnext _ ih =>
    obtain ⟨-, hread⟩ := (listItems_none_eq_ok_iff hconn hattach).1 hlist
    obtain ⟨rfl, hread⟩ := hpage hread
    exact .more hread hnext (ih hconn hattach)

/-- A collection with one item lists it. -/
theorem lists_of_items_eq (S : V.ShowsFirst F I kept) (R : F.ReadsOnly)
    (hconn : s.connected = true) (ho : V.Opened F I s.server name h held) {shown : Item}
    (hitems : V.items held = [shown]) :
    (∀ {sizes items s'}, Drains (F.listItems name · none) none sizes s items s' →
      items = [shown]) ∧
      Drains (F.listItems name · none) none [2] s [shown] s := by
  constructor
  · intro sizes items s' hdrain
    exact S.drains_readPage ho hitems (drains_of_unfiltered R hconn ho.attach hdrain)
  · have hread : onServer (F.readPage h none (.first 2)) s = (.ok ⟨[shown], none⟩, s) := by
      rw [onServer_apply, S.readPage ho hitems]
    have htwo : 0 < (PageRequest.first 2).size := Nat.zero_lt_two
    exact .single ((listItems_none_eq_ok_iff hconn ho.attach).2 ⟨htwo, hread⟩)

/-! ## Adding to an empty collection -/

/-- **The first item of a collection is what the collection then lists**, and it is
listed under its id exactly when the id survives. -/
theorem first_item_listed (S : V.ShowsFirst F I kept)
    (R : F.ReadsOnly) (G : F.Guards I fun _ => True) (hI : I s.server)
    (hheld : V.held? s.server (V.serverName name) = some held) (hempty : V.items held = [])
    {item : Item} (hadd : F.addItems name [item] s = (.ok (), s')) :
    ∃ shown, (∀ {sizes items s''}, Drains (F.listItems name · none) none sizes s' items s'' →
        items = [shown]) ∧
      Drains (F.listItems name · none) none [2] s' [shown] s' ∧
      (shown.id = item.id ↔ item.IdSurvives (kept held item.id)) := by
  have hI' : I s'.server := by
    have hany : ∀ given ∈ [item], (fun _ => True) given.metadata := fun _ _ => trivial
    have hkept := keeps_addItems R G name hany s hI
    rwa [hadd] at hkept
  have hcases := addItems_cases R name [item] s
  rw [hadd] at hcases
  rcases hcases with ⟨-, hnone⟩ | ⟨h, batch, -, hattach, hbare, -, hwrite, hconn⟩
  · exact absurd (hnone rfl) (List.cons_ne_nil _ _)
  -- the batch that is written is the item, with a vector filled in
  obtain ⟨filled, rfl⟩ : ∃ filled, batch = [filled] := by
    have hlength := congrArg List.length hbare
    rw [List.length_map, List.length_map] at hlength
    exact List.length_eq_one_iff.1 hlength
  obtain ⟨given, hgiven, hid, hmeta⟩ := Item.exists_of_bare hbare List.mem_cons_self
  obtain rfl := List.mem_singleton.1 hgiven
  obtain ⟨held', shown, hheld', hitems, hshown⟩ :=
    S.write ⟨hI, hattach, hheld⟩ hempty hwrite
  obtain ⟨h', hattach'⟩ := S.attach_of_held hheld'
  obtain ⟨hall, hone⟩ := lists_of_items_eq S R hconn ⟨hI', hattach', hheld'⟩ hitems
  refine ⟨shown, hall, hone, ?_⟩
  rw [Item.IdSurvives, ← hid, ← hmeta] at hshown
  exact hshown

end Family

end VectorBridge
