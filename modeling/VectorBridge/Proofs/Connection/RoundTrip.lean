import VectorBridge.Proofs.Connection.FirstItem
import VectorBridge.Proofs.Connection.Search
import VectorBridge.Proofs.Milvus.RoundTrip
import VectorBridge.Proofs.Qdrant.ById
import VectorBridge.Proofs.Weaviate.ById
/-!
# Items that survive storage

Qdrant, Weaviate and Milvus servers keep the document of an item beside its metadata
in one map. What is added to them is read back by id as it was, its metadata field by
field, and its vector too when it is finite. A Milvus row has a text for its document
where the item has none, so there an empty document is read as none.
-/

namespace VectorBridge

namespace Holding

/-- A document as a collection keeps it. -/
def keptDocument : Holding → Option String → Option String
  | milvus _ => Milvus.keptDocument
  | chroma _ | qdrant _ | postgres _ | weaviate _ | table _ => id

/-- The document of an item has a field of its own, beside the metadata and the vector.
Where fields of the document's name are refused it has. -/
def RoomForDocument : Holding → Item → Prop
  | qdrant _, item => Keyed.get? Qdrant.documentKey item.metadata = none
  | milvus s, _ => s.schema.vectorField ≠ Milvus.documentFieldName
  | chroma _, _ | postgres _, _ | weaviate _, _ | table _, _ => True

instance (h : Holding) (item : Item) : Decidable (h.RoomForDocument item) :=
  match h with
  | qdrant _ => inferInstanceAs (Decidable (Keyed.get? Qdrant.documentKey item.metadata = none))
  | milvus s => inferInstanceAs (Decidable (s.schema.vectorField ≠ Milvus.documentFieldName))
  | chroma _ | postgres _ | weaviate _ | table _ => inferInstanceAs (Decidable True)

/-- Whether keys are integers, under which an id may have to stand beside its key. -/
def integerKeyed : Holding → Bool
  | milvus s => s.schema.idKind = .integer
  | chroma _ | qdrant _ | postgres _ | weaviate _ | table _ => false

/-- No two integer keys of a collection are one as binary64 values. -/
def KeysApart : Holding → Prop
  | milvus s => s.KeysApart
  | chroma _ | qdrant _ | postgres _ | weaviate _ | table _ => True

/-- Whether integer keys are so small that binary64 values hold them exactly. -/
def smallKeys : Holding → Bool
  | milvus s => s.rows.all fun row =>
    match Milvus.keyOf s.schema row with
    | .integer k => k < 2 ^ 53
    | _ => true
  | chroma _ | qdrant _ | postgres _ | weaviate _ | table _ => true

/-- Small keys are told apart. -/
theorem keysApart_of_smallKeys {h : Holding} (hsmall : h.smallKeys = true) : h.KeysApart := by
  cases h with
  | milvus s =>
    refine Milvus.keysApart_of_lt fun row hrow k hkey => ?_
    have hrowSmall := List.all_eq_true.1 hsmall row hrow
    rw [hkey] at hrowSmall
    exact of_decide_eq_true hrowSmall
  | chroma | qdrant | postgres | weaviate | table => trivial

end Holding

namespace Connection

/-- The rows of collections can be told to be there: keys that should be strings are. -/
def Filed : Connection → Prop
  | milvus s => s.server.Filed
  | _ => True

theorem Used.filed {c : Connection} (h : c.Used) : c.Filed := by
  induction h with
  | fresh h =>
    cases h with
    | milvus hm context => exact hm.filed
    | chroma | qdrant | postgres | weaviate | tables => trivial
  | @resolving c r h ih => cases c <;> exact ih
  | @perform c call h ih =>
    have hany : call.Admissible fun _ => True := call.admissible_of_forall fun _ => trivial
    cases c with
    | milvus s => exact (Family.keeps Milvus.readsOnly Milvus.guards_filed).perform hany s ih
    | chroma | chromaRest | qdrant | postgres | milvusRest | weaviate | weaviateRest | tables
    | directory | unsteady => trivial

section Family

variable {τ Held Row Handle Condition Fragment : Type} {V : Storage τ Held Row Fragment}
variable {F : Family τ Handle Condition Fragment} {I : τ → Prop} {tells : Held → Held → Prop}
variable {fits : Held → Item → Prop} {kept : Option String → Option String}
variable {mk : Session τ → Connection} {inj : Held → Holding} {P : Holding → Prop}

/-- What a connection reads back is what its session reads back. -/
theorem added_items_read_of_family (W : WrapsById V F mk inj)
    (T : V.RoundTrips F I tells fits kept) (R : F.ReadsOnly)
    (hfits : ∀ held item, (inj held).RoomForDocument item → fits held item)
    (hkept : ∀ held, (inj held).keptDocument = kept) {s : Session τ} (hI : I s.server)
    {name : String} {h : Holding} (hheld : (mk s).holding? ((mk s).serverName name) = some h)
    (htells : ∀ held held', inj held = h → P (inj held') → tells held held')
    {items : List Item} (hplain : ∀ item ∈ items, Metadata.Plain item.metadata) {c' : Connection}
    (hadd : addItems name items (mk s) = (.ok (), c')) :
    ∃ h', c'.holding? ((mk s).serverName name) = some h' ∧ (P h' →
      ∀ item ∈ items, ∀ e, item.embedding = some e → e.Finite → h.RoomForDocument item →
        ∃ shown, getItems name [item.id] c' = (.ok [shown], c') ∧
          (item.keeping h.keptDocument).Agrees shown) := by
  rw [W.serverName, W.holding?] at hheld
  obtain ⟨held, hstored, rfl⟩ := Option.map_eq_some_iff.1 hheld
  rw [W.add] at hadd
  rcases hrun : F.addItems name items s with ⟨r, s'⟩
  rw [hrun] at hadd
  obtain ⟨rfl, rfl⟩ := Prod.mk.inj hadd
  obtain ⟨held', hheld', hread⟩ := Family.added_items_read T R hI hstored hplain hrun
  refine ⟨inj held', by rw [W.serverName, W.holding?, hheld']; rfl,
    fun hP item hitem e hvector hfinite hroom => ?_⟩
  obtain ⟨shown, hget, hagrees⟩ :=
    hread (htells _ _ rfl hP) item hitem e hvector hfinite (hfits _ _ hroom)
  exact ⟨shown, by rw [W.get, hget]; rfl, by rw [hkept]; exact hagrees⟩

end Family

/-- What is read for the id of an item after a batch has been added. -/
def readAfterAdding (items : List Item) (id : String) (c : Connection) : Option (List Item) :=
  match addItems "docs" items c with
  | (.ok (), c') => (getItems "docs" [id] c').1.toOption
  | _ => none

theorem of_readAfterAdding {items found : List Item} {id : String} {c : Connection}
    (h : c.readAfterAdding items id = some found) :
    ∃ c', addItems "docs" items c = (.ok (), c') ∧ (getItems "docs" [id] c').1 = .ok found := by
  rw [readAfterAdding] at h
  split at h
  · rename_i c' hadd
    exact ⟨c', hadd, ok_of_toOption h⟩
  · cases h

/-- An item with a document and a number, at the place of all others. -/
def noted (id : String) (document : Option String) (n : Int) : Item :=
  ⟨id, document, [("n", .num (.int n))], some [Metric.one]⟩

theorem finite_one : Embedding.Finite [Metric.one] := by
  intro x hx
  rw [List.mem_singleton.1 hx]
  rfl

/-- An item is added to a collection, in a batch, and what is read back for its id, alone,
has another document. -/
structure ReadsOtherDocument (c : Connection) (items : List Item) (item : Item)
    (document : Option String) : Prop where
  used : c.Used
  maps : c.mapsIds = true
  there : (c.idsOf "docs").isSome = true
  plain : ∀ given ∈ items, Metadata.Plain given.metadata
  mem : item ∈ items
  finite : ∃ e, item.embedding = some e ∧ e.Finite
  read : ∃ c' shown, addItems "docs" items c = (.ok (), c') ∧
    (getItems "docs" [item.id] c').1 = .ok [shown] ∧ shown.document = document
  other : document ≠ item.document

theorem ReadsOtherDocument.of_run {c : Connection} {item : Item} {others : List Item}
    {document : Option String} (hc : c.Used) (hmaps : c.mapsIds = true)
    (hthere : (c.idsOf "docs").isSome = true)
    (hplain : ∀ given ∈ item :: others, Metadata.Plain given.metadata)
    (hvector : item.embedding = some [Metric.one])
    (hrun : (c.readAfterAdding (item :: others) item.id).map
      (fun found => found.map (·.document)) = some [document])
    (hother : document ≠ item.document) :
    c.ReadsOtherDocument (item :: others) item document := by
  obtain ⟨found, hfound, hdocuments⟩ := Option.map_eq_some_iff.1 hrun
  obtain ⟨c', hadd, hget⟩ := of_readAfterAdding hfound
  obtain ⟨shown, rfl, hdocument⟩ := List.map_eq_singleton_iff.1 hdocuments
  exact ⟨hc, hmaps, hthere, hplain, List.mem_cons_self, ⟨_, hvector, finite_one⟩,
    ⟨c', shown, hadd, hget, hdocument⟩, hother⟩

/-- A Milvus server with a collection whose vectors stand in the field of the documents. -/
def oneField : Connection :=
  let schema : Milvus.Schema :=
    { Milvus.Schema.plain with vectorField := Milvus.documentFieldName, dimension := some 1 }
  .milvus (.start (Milvus.Memory.empty.withCollection "docs" schema) .empty)

theorem fresh_oneField : oneField.Fresh := by
  refine .milvus (.withCollection .empty _ ⟨?_, ?_, ?_, ?_, ?_⟩) _
  all_goals decide

/-- Integer keys of two items that both claim the id of a third under the reserved key. -/
def claimed : Connection :=
  (perform (.addItems "docs" [claiming "8" "doc_5"])
    (perform (.addItems "docs" [claiming "7" "doc_5"]) integerKeyed.prepared).2).2

end Connection

end VectorBridge
