import VectorBridge.Proofs.Connection.Removal
import VectorBridge.Proofs.Milvus.FirstItem
import VectorBridge.Proofs.Qdrant.ById
import VectorBridge.Proofs.Weaviate.ById
/-!
# Ids that survive storage

Qdrant, Weaviate and Milvus servers keep an item under a key made from its id. Where
the id cannot be read off the key it stands beside it, among the item's metadata,
under a reserved field. The field is read whether it was written for the id or came
with the item, so an id survives unless its key tells it and the metadata of the
item has another text in the reserved field. This is said of the first item of a
collection, which a listing then shows alone, on a server that any calls have led
to, with any metadata.
-/

namespace VectorBridge

/-- Whether a collection keeps an id beside the key made from it. -/
def Holding.keepsBeside : Holding → String → Bool
  | qdrant _, id | weaviate _, id => (uuidKey id).2
  | milvus s, id => s.keepsBeside id
  | chroma _, _ | postgres _, _ | table _, _ => false

namespace Connection

/-! ## Connections that any calls lead to -/

/-- The connections that calls lead to, whatever the metadata of the items. -/
inductive Used : Connection → Prop where
  | fresh {c : Connection} (h : c.Fresh) : Used c
  | resolving {c : Connection} (r : DimensionResolver) (h : Used c) : Used (c.resolving r)
  | perform {c : Connection} (call : AdapterCall) (h : Used c) :
      Used (Connection.perform call c).2

/-- Whether the server keeps items under keys made from their ids. -/
def mapsIds : Connection → Bool
  | qdrant _ | weaviate _ | milvus _ => true
  | _ => false

/-- Collections are named and described so that their rows can be read. -/
def Readable : Connection → Prop
  | milvus s => s.server.Apart
  | weaviate s => s.server.Named
  | _ => True

theorem Fresh.readable {c : Connection} (h : c.Fresh) : c.Readable := by
  cases h with
  | milvus hm context => exact hm.apart
  | weaviate context => exact nofun
  | chroma | qdrant | postgres | tables => trivial

theorem Readable.resolving {c : Connection} (h : c.Readable) (r : DimensionResolver) :
    (c.resolving r).Readable := by
  cases c <;> exact h

/-- A call leaves a readable server readable. -/
theorem Readable.perform {c : Connection} (call : AdapterCall) (h : c.Readable) :
    (Connection.perform call c).2.Readable := by
  have hany : call.Admissible fun _ => True := call.admissible_of_forall fun _ => trivial
  cases c with
  | milvus s => exact (Family.keeps Milvus.readsOnly Milvus.guards_apart).perform hany s h
  | weaviate s => exact (Family.keeps Weaviate.readsOnly Weaviate.guards_named).perform hany s h
  | chroma | chromaRest | qdrant | postgres | milvusRest | weaviateRest | tables | directory
  | unsteady => trivial

theorem Used.readable {c : Connection} (h : c.Used) : c.Readable := by
  induction h with
  | fresh h => exact h.readable
  | resolving r _ ih => exact ih.resolving r
  | perform call _ ih => exact ih.perform call

/-! ## The first item -/

/-- A listing without a filter shows one item and ends. -/
structure ListsAlone (c : Connection) (name : String) (shown : Item) : Prop where
  all : ∀ {sizes items c'}, Drains (listItems name · none) none sizes c items c' →
    items = [shown]
  ends : ∃ c', Drains (listItems name · none) none [2] c [shown] c'

section Family

variable {τ Held Row Handle Condition Fragment : Type} {V : Storage τ Held Row Fragment}
variable {F : Family τ Handle Condition Fragment} {I : τ → Prop} {kept : Held → String → Bool}
variable {mk : Session τ → Connection} {inj : Held → Holding}

/-- What a connection lists after the first item is what its session lists. -/
theorem first_item_of_family (W : WrapsById V F mk inj) (S : V.ShowsFirst F I kept)
    (R : F.ReadsOnly) (G : F.Guards I fun _ => True)
    (hkept : ∀ held id, (inj held).keepsBeside id = kept held id) {s : Session τ}
    (hI : I s.server) {name : String} {h : Holding}
    (hheld : (mk s).holding? ((mk s).serverName name) = some h) (hempty : h.items = [])
    {item : Item} {c' : Connection} (hadd : addItems name [item] (mk s) = (.ok (), c')) :
    ∃ shown, c'.ListsAlone name shown ∧
      (shown.id = item.id ↔ item.IdSurvives (h.keepsBeside item.id)) := by
  rw [W.serverName, W.holding?] at hheld
  obtain ⟨held, hstored, rfl⟩ := Option.map_eq_some_iff.1 hheld
  rw [W.items] at hempty
  rw [W.add] at hadd
  obtain ⟨hok, rfl⟩ := Prod.mk.inj hadd
  have hlist : ∀ request s, listItems name request none (mk s) =
      (F.listItems name request none s).map id mk := fun request s => W.list _ _ _ s
  obtain ⟨shown, hall, hone, hshown⟩ :=
    Family.first_item_listed S R G hI hstored hempty (Prod.ext hok rfl)
  refine ⟨shown, ⟨fun hdrain => ?_, ?_⟩, ?_⟩
  · obtain ⟨s'', -, hdrain⟩ := hdrain.of_lift hlist
    exact hall hdrain
  · exact ⟨_, hone.lift hlist⟩
  · rw [hkept]
    exact hshown

end Family

/-- **The first item of a collection is listed alone, and under its id exactly when
the id survives.** Take any connection that calls have led to, whose server keeps
items under keys made from their ids, and a collection there without items. If an
item can be added, a listing shows one item and ends. The id shown is the one that
was added if it is kept beside the key, or if the metadata has no other text in the
reserved field; and else it is another. -/
theorem first_item_keeps_id_iff {c c' : Connection} (hc : c.Used) (hmaps : c.mapsIds = true)
    {name : String} {h : Holding} (hheld : c.holding? (c.serverName name) = some h)
    (hempty : h.items = []) {item : Item} (hadd : addItems name [item] c = (.ok (), c')) :
    ∃ shown, c'.ListsAlone name shown ∧
      (shown.id = item.id ↔ item.IdSurvives (h.keepsBeside item.id)) := by
  have hread := hc.readable
  cases c with
  | qdrant s =>
    exact first_item_of_family wrapsById_qdrant Qdrant.showsFirst Qdrant.readsOnly
      Qdrant.guards_any (fun _ _ => rfl) trivial hheld hempty hadd
  | weaviate s =>
    exact first_item_of_family wrapsById_weaviate Weaviate.showsFirst Weaviate.readsOnly
      Weaviate.guards_named (fun _ _ => rfl) hread hheld hempty hadd
  | milvus s =>
    exact first_item_of_family wrapsById_milvus Milvus.showsFirst Milvus.readsOnly
      Milvus.guards_apart (fun _ _ => rfl) hread hheld hempty hadd
  | chroma | chromaRest | postgres | milvusRest | weaviateRest | tables | directory
  | unsteady => cases hmaps

/-! ## Items with a text in the reserved field -/

theorem Fresh.used_prepared {c : Connection} (h : c.Fresh) : c.prepared.Used :=
  .perform _ (.perform _ (.fresh h))

/-- An item with a text in the reserved field. -/
def claiming (id given : String) : Item :=
  ⟨id, none, [(givenIdKey, .str given)], some [Binary32.ofParts false 0]⟩

/-- The ids on the only page of a listing after an item has been added. -/
def idsListedAfter (item : Item) (c : Connection) : Option (List String) :=
  match addItems "docs" [item] c with
  | (.ok (), c') =>
    match listItems "docs" (.first 2) none c' with
    | (.ok ⟨items, none⟩, _) => some (items.map (·.id))
    | _ => none
  | _ => none

theorem of_idsListedAfter {item : Item} {c : Connection} {listed : List String}
    (h : c.idsListedAfter item = some listed) :
    ∃ c' c'' items, addItems "docs" [item] c = (.ok (), c') ∧
      Drains (listItems "docs" · none) none [2] c' items c'' ∧ items.map (·.id) = listed := by
  rw [idsListedAfter] at h
  split at h
  · rename_i c' hadd
    split at h
    · rename_i items c'' hlist
      cases h
      exact ⟨c', c'', items, hadd, .single hlist, rfl⟩
    · cases h
  · cases h

theorem fresh_integerKeyed : integerKeyed.Fresh := by
  refine .milvus (.withCollection .empty _ ⟨?_, ?_, ?_, ?_, ?_⟩) _
  all_goals decide

/-- A name under an integer key: it is kept beside the key, in the place of the text
that came with the item. -/
theorem first_item_keeps_id_iff_of_name :
    ∃ h c', integerKeyed.prepared.Used ∧ integerKeyed.prepared.mapsIds = true ∧
      integerKeyed.prepared.holding? (integerKeyed.prepared.serverName "docs") = some h ∧
      h.items = [] ∧ h.keepsBeside "doc_5" = true ∧
      addItems "docs" [claiming "doc_5" "b"] integerKeyed.prepared = (.ok (), c') ∧
      ∃ shown, c'.ListsAlone "docs" shown ∧ shown.id = "doc_5" ∧
        (shown.id = (claiming "doc_5" "b").id ↔
          (claiming "doc_5" "b").IdSurvives (h.keepsBeside (claiming "doc_5" "b").id)) := by
  have hrun : integerKeyed.prepared.idsListedAfter (claiming "doc_5" "b") = some ["doc_5"] := by
    decide +kernel
  have hbefore : (integerKeyed.prepared.holding? (integerKeyed.prepared.serverName "docs")).map
      (fun h => (h.items.map (·.id), h.keepsBeside "doc_5")) = some ([], true) := by
    decide +kernel
  obtain ⟨h, hheld, hfacts⟩ := Option.map_eq_some_iff.1 hbefore
  obtain ⟨hids, hkept⟩ := Prod.mk.inj hfacts
  have hempty : h.items = [] := List.map_eq_nil_iff.1 hids
  obtain ⟨c', -, -, hadd, -, -⟩ := of_idsListedAfter hrun
  have hmaps : integerKeyed.prepared.mapsIds = true := by decide +kernel
  have hused := fresh_integerKeyed.used_prepared
  obtain ⟨shown, hlists, hiff⟩ := first_item_keeps_id_iff hused hmaps hheld hempty hadd
  exact ⟨h, c', hused, hmaps, hheld, hempty, hkept, hadd, shown, hlists, hiff.2 (.inl hkept), hiff⟩

/-- An item of an id is added to an empty collection with another text in the reserved
field, and is listed under the text. -/
structure ListsUnderText (c : Connection) (id text : String) : Prop where
  used : c.Used
  before : c.idsOf "docs" = some []
  listed : ∃ c' c'' items, addItems "docs" [claiming id text] c = (.ok (), c') ∧
    Drains (listItems "docs" · none) none [2] c' items c'' ∧ items.map (·.id) = [text]
  other : id ≠ text

theorem ListsUnderText.of_run {c : Connection} {id text : String} (hc : c.Fresh)
    (hbefore : c.prepared.idsOf "docs" = some [])
    (hrun : c.prepared.idsListedAfter (claiming id text) = some [text]) (hother : id ≠ text) :
    c.prepared.ListsUnderText id text :=
  ⟨hc.used_prepared, hbefore, of_idsListedAfter hrun, hother⟩

/-- Items whose ids are told by their keys, on servers of all kinds of keys. -/
theorem first_item_listed_under_reserved_text :
    (milvus (.start .empty .empty)).prepared.ListsUnderText "a" "b" ∧
      integerKeyed.prepared.ListsUnderText "7" "b" ∧
      (qdrant (.start .empty .empty)).prepared.ListsUnderText
        "10e57509-1331-560e-b825-b49df3fe209b" "b" ∧
      (weaviate (.start .empty .empty)).prepared.ListsUnderText
        "10e57509-1331-560e-b825-b49df3fe209b" "b" := by
  refine ⟨.of_run (.milvus .empty _) ?_ ?_ ?_, .of_run fresh_integerKeyed ?_ ?_ ?_,
    .of_run (.qdrant _) ?_ ?_ ?_, .of_run (.weaviate _) ?_ ?_ ?_⟩
  all_goals decide +kernel

end Connection

end VectorBridge
