import VectorBridge.Proofs.Family.Removal
import VectorBridge.Proofs.Identifier
import VectorBridge.Proofs.Widening
/-!
# Items read and removed by id

A family reads and removes the items of some ids with one question each, which
it does not ask for no ids. Where the question is answered, so is the call; what
a removal takes are the rows that the ids select.
-/

namespace VectorBridge

variable {τ Held Row Handle Condition Fragment : Type}

namespace Family

open Session

variable {F : Family τ Handle Condition Fragment} {V : Storage τ Held Row Fragment}
variable {I : τ → Prop} {s : Session τ} {name : String} {h : Handle} {held : Held}
variable {ids : List String}

/-- What is fetched for some ids is what is read, when nothing is fetched for
none. -/
theorem getItems_of_fetch {found : List Item} (hconn : s.connected = true)
    (hattach : F.attach name s.server = (.ok h, s.server))
    (hfetch : F.fetch h ids s.server = (.ok found, s.server)) (hnil : ids = [] → found = []) :
    F.getItems name ids s = (.ok found, s) := by
  rw [getItems, ensureConnected_bind hconn]
  split
  · rename_i hempty
    rw [hnil (List.isEmpty_iff.1 hempty)]
    rfl
  · rw [Step.bind_of_ok (call_of_ok hattach)]
    exact call_of_ok hfetch

/-- **A removal by id leaves out the rows that the ids select**, and changes no
other collection, where the server takes the question. -/
theorem deleteItems_of_ids (L : V.Lawful F I) (ho : V.Opened F I s.server name h held)
    (hconn : s.connected = true) {filter : Option Filter} (hfilter : selective filter = none)
    (herase : ∃ t, F.eraseIds h ids s.server = (.ok (), t)) :
    ∃ s', F.deleteItems name ids filter s = (.ok (), s') ∧ s'.connected = true ∧
      V.Changed s.server s'.server (V.serverName name)
        (V.keeping held fun row => !V.selects held ids row) := by
  obtain ⟨t, herase⟩ := herase
  have hdel : F.deleteItems name ids filter s = F.deleteIds name ids s := by
    rw [deleteItems, ensureConnected_bind hconn, hfilter]
  obtain ⟨s', hrun⟩ : ∃ s', F.deleteIds name ids s = (.ok (), s') := by
    rw [deleteIds]
    split
    · exact ⟨s, rfl⟩
    · rw [Step.bind_of_ok (call_of_ok ho.attach), Step.bind_of_ok (call_of_ok herase)]
      exact ⟨_, rfl⟩
  obtain ⟨hsame, hchanged⟩ := deleteIds_ok L ho hrun
  exact ⟨s', hdel.trans hrun, hsame.trans hconn, hchanged⟩

end Family

/-! ## Items read back

A family writes a batch as rows, and a read by id finds the row of the id alone. So
an item that was added is read back as far as its row keeps it.
-/

/-- Two items agree: their metadata tells the same of every field, and all else is
the same. -/
structure Item.Agrees (item shown : Item) : Prop where
  id : shown.id = item.id
  document : shown.document = item.document
  metadata : ∀ field, Keyed.get? field shown.metadata = Keyed.get? field item.metadata
  embedding : shown.embedding = item.embedding

/-- The item with its document as it is kept. -/
def Item.keeping (kept : Option String → Option String) (item : Item) : Item :=
  { item with document := kept item.document }

/-! ### Families that read back what they write -/

/-- A batch that a family writes is read back: each item is found by its id, alone,
with its document as it is kept. Reads are exact where `tells` says, of a collection
before and after the write, that its rows are told apart; an item is kept where `fits`
says that its parts have room beside each other. -/
structure Storage.RoundTrips (V : Storage τ Held Row Fragment)
    (F : Family τ Handle Condition Fragment) (I : τ → Prop) (tells : Held → Held → Prop)
    (fits : Held → Item → Prop) (kept : Option String → Option String) : Prop where
  write : ∀ {t t' name h held batch}, V.Opened F I t name h held →
    (∀ item ∈ batch, Metadata.Plain item.metadata) → (batch.map (·.id)).Nodup →
    F.write h batch t = (.ok (), t') →
      ∃ held', V.held? t' (V.serverName name) = some held' ∧ (tells held held' →
        ∀ item ∈ batch, ∀ e, item.embedding = some e → e.Finite → F.checkItem item = .ok () →
          fits held item → ∃ h' shown, F.attach name t' = (.ok h', t') ∧
            F.fetch h' [item.id] t' = (.ok [shown], t') ∧ (item.keeping kept).Agrees shown)

namespace Family

variable {F : Family τ Handle Condition Fragment} {V : Storage τ Held Row Fragment}
variable {I : τ → Prop} {tells : Held → Held → Prop} {fits : Held → Item → Prop}
variable {kept : Option String → Option String} {s s' : Session τ} {name : String} {held : Held}

/-- **What was added is read back**, with its document as it is kept. -/
theorem added_items_read (T : V.RoundTrips F I tells fits kept) (R : F.ReadsOnly)
    (hI : I s.server) (hheld : V.held? s.server (V.serverName name) = some held)
    {items : List Item} (hplain : ∀ item ∈ items, Metadata.Plain item.metadata)
    (hadd : F.addItems name items s = (.ok (), s')) :
    ∃ held', V.held? s'.server (V.serverName name) = some held' ∧ (tells held held' →
      ∀ item ∈ items, ∀ e, item.embedding = some e → e.Finite → fits held item →
        ∃ shown, F.getItems name [item.id] s' = (.ok [shown], s') ∧
          (item.keeping kept).Agrees shown) := by
  have hcases := addItems_accepted R name items s
  rw [hadd] at hcases
  rcases hcases with ⟨hserver, hnone⟩ | ⟨h, batch, -, hattach, haccepts, hids, hwrite, hconn⟩
  · rw [hserver, hnone rfl]
    exact ⟨held, hheld, fun _ => nofun⟩
  have hplain' : ∀ item ∈ batch, Metadata.Plain item.metadata :=
    Item.forall_of_bare haccepts.bare hplain
  have hids' : (batch.map (·.id)).Nodup := by
    rw [Item.map_eq_of_bare (fun _ => rfl) haccepts.bare]
    exact hids
  obtain ⟨held', hheld', hread⟩ := T.write ⟨hI, hattach, hheld⟩ hplain' hids' hwrite
  refine ⟨held', hheld', fun htells item hitem e hvector hfinite hfits => ?_⟩
  -- an item with a vector is written as it was handed over
  have hwritten : item ∈ batch := haccepts.kept item hitem (by rw [hvector]; rfl)
  obtain ⟨h', shown, hattach', hfetch, hagrees⟩ :=
    hread htells item hwritten e hvector hfinite (haccepts.checked item hitem) hfits
  exact ⟨shown, getItems_of_fetch hconn hattach' hfetch nofun, hagrees⟩

end Family

end VectorBridge
