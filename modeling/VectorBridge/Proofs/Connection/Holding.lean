import VectorBridge.Connection
import VectorBridge.Proofs.Chroma.Storage
import VectorBridge.Proofs.Columnar.Removal
import VectorBridge.Proofs.Milvus.Storage
import VectorBridge.Proofs.Postgres.Storage
import VectorBridge.Proofs.Qdrant.Storage
import VectorBridge.Proofs.Weaviate.Storage
/-!
# What a connection's server holds

A connection with a server in memory holds collections of one kind. What
adapters of every kind say of a collection is said of `Holding`: the items it
shows, and the collection without some of them. Calls lead from a new connection
to others, and of all these the server satisfies the invariant of its kind.
-/

namespace VectorBridge

/-- A collection of some kind, as a server holds it. -/
inductive Holding where
  | chroma (s : Chroma.Stored)
  | qdrant (s : Qdrant.Stored)
  | postgres (t : Postgres.Table)
  | milvus (s : Milvus.Stored)
  | weaviate (s : Weaviate.Stored)
  | table (t : Columnar.Table)

namespace Holding

/-- The items of a collection, in the order of a listing. -/
def items : Holding → List Item
  | chroma s => Chroma.storage.items s
  | qdrant s => Qdrant.storage.items s
  | postgres t => Postgres.storage.items t
  | milvus s => Milvus.storage.items s
  | weaviate s => Weaviate.storage.items s
  | table t => t.items

/-- The collection without the items of the ids of some items. -/
def without : Holding → List Item → Holding
  | chroma s, gone => chroma (Chroma.storage.without s gone)
  | qdrant s, gone => qdrant (Qdrant.storage.without s gone)
  | postgres t, gone => postgres (Postgres.storage.without t gone)
  | milvus s, gone => milvus (Milvus.storage.without s gone)
  | weaviate s, gone => weaviate (Weaviate.storage.without s gone)
  | table t, gone => table (t.remove (gone.map (·.id)))

end Holding

/-- Taking items out of a collection takes them out of what it shows. -/
theorem Storage.items_without {τ Held Row Handle Condition Fragment : Type}
    {V : Storage τ Held Row Fragment} {F : Family τ Handle Condition Fragment} {I : τ → Prop}
    (L : V.Lawful F I) (held : Held) (gone : List Item) :
    V.items (V.without held gone) =
      (V.items held).filter fun item => !(gone.map (·.id)).contains item.id := by
  rw [Storage.items, Storage.items, Storage.without, Storage.keeping, L.rows_withRows,
    L.itemOf_withRows, List.filter_map]
  rfl

/-- **What is shown without some items** is the rest, as it was. -/
theorem Holding.items_without (h : Holding) (gone : List Item) :
    (h.without gone).items =
      h.items.filter fun item => !(gone.map (·.id)).contains item.id := by
  cases h with
  | chroma s => exact Storage.items_without Chroma.lawful s gone
  | qdrant s => exact Storage.items_without Qdrant.lawful s gone
  | postgres t => exact Storage.items_without Postgres.lawful t gone
  | milvus s => exact Storage.items_without Milvus.lawful s gone
  | weaviate s => exact Storage.items_without Weaviate.lawful s gone
  | table t => exact Columnar.items_remove t _

namespace Connection

/-- The server's name of a collection. -/
def serverName : Connection → String → String
  | weaviate _, name => Weaviate.className name
  | _, name => name

/-- What a server in memory holds under a name of its own. -/
def holding? : Connection → String → Option Holding
  | chroma s, name => (Chroma.storage.held? s.server name).map .chroma
  | qdrant s, name => (Qdrant.storage.held? s.server name).map .qdrant
  | postgres s, name => (Postgres.storage.held? s.server name).map .postgres
  | milvus s, name => (Milvus.storage.held? s.server name).map .milvus
  | weaviate s, name => (Weaviate.storage.held? s.server name).map .weaviate
  | tables s, name => (Keyed.get? name s.server.tables).map .table
  | chromaRest _, _ | milvusRest _, _ | weaviateRest _, _ | directory _, _ | unsteady _, _ => none

/-- One page of the items that pass a filter. -/
def listItems (name : String) (request : PageRequest) (filter : Option Filter) :
    Action Connection (Page Item) := fun c =>
  c.onSession fun A s => A.listItems name request filter s

/-- Removes items by id, by filter or by both. -/
def deleteItems (name : String) (ids : List String) (filter : Option Filter) :
    Action Connection Unit := fun c =>
  c.onSession fun A s => A.deleteItems name ids filter s

/-! ## Connections that calls lead to -/

/-- The server satisfies the invariant of its kind. -/
def Sound : Connection → Prop
  | chroma s => s.server.Numbered
  | qdrant s => s.server.Faithful
  | postgres s => s.server.Ordered
  | milvus s => s.server.Sound
  | weaviate s => s.server.Faithful
  | tables s => s.server.Distinct
  | chromaRest _ | milvusRest _ | weaviateRest _ | directory _ | unsteady _ => False

/-- A new connection with a server in memory. A Milvus server may have
collections of other schemas than the plain one, without rows. -/
inductive Fresh : Connection → Prop where
  | chroma (context : Context) : Fresh (.chroma (.start .empty context))
  | qdrant (context : Context) : Fresh (.qdrant (.start .empty context))
  | postgres (context : Context) : Fresh (.postgres (.start .empty context))
  | milvus {m : Milvus.Memory} (hm : m.Prepared) (context : Context) :
      Fresh (.milvus (.start m context))
  | weaviate (context : Context) : Fresh (.weaviate (.start .empty context))
  | tables (context : Context) : Fresh (.tables (.start .empty context))

/-- The connections that calls lead to, with items whose metadata leaves the
reserved key alone, and with widths resolved in whatever way. -/
inductive Reached : Connection → Prop where
  | fresh {c : Connection} (h : c.Fresh) : Reached c
  | resolving {c : Connection} (r : DimensionResolver) (h : Reached c) : Reached (c.resolving r)
  | perform {c : Connection} {call : AdapterCall} (hcall : call.Admissible Metadata.Plain)
      (h : Reached c) : Reached (Connection.perform call c).2

theorem Fresh.sound {c : Connection} (h : c.Fresh) : c.Sound := by
  cases h with
  | chroma context => exact ⟨List.Pairwise.nil, nofun, nofun, nofun, nofun⟩
  | qdrant context => exact nofun
  | postgres context => exact nofun
  | milvus hm context => exact hm.sound
  | weaviate context => exact nofun
  | tables context => exact nofun

theorem Sound.resolving {c : Connection} (h : c.Sound) (r : DimensionResolver) :
    (c.resolving r).Sound := by
  cases c <;> exact h

/-- A call keeps the invariant of the server. -/
theorem Sound.perform {c : Connection} {call : AdapterCall}
    (hcall : call.Admissible Metadata.Plain) (h : c.Sound) :
    (Connection.perform call c).2.Sound := by
  have hany : call.Admissible fun _ => True := hcall.mono fun _ _ => trivial
  cases c with
  | chroma s => exact (Family.keeps Chroma.readsOnly Chroma.guards).perform hany s h
  | qdrant s => exact (Family.keeps Qdrant.readsOnly Qdrant.guards).perform hcall s h
  | postgres s => exact (Family.keeps Postgres.readsOnly Postgres.guards).perform hany s h
  | milvus s => exact (Family.keeps Milvus.readsOnly Milvus.guards).perform hcall s h
  | weaviate s => exact (Family.keeps Weaviate.readsOnly Weaviate.guards).perform hcall s h
  | tables s => exact Columnar.keeps.perform hany s h
  | chromaRest | milvusRest | weaviateRest | directory | unsteady => exact h.elim

/-- **The invariant holds of every connection that calls lead to.** -/
theorem Reached.sound {c : Connection} (h : c.Reached) : c.Sound := by
  induction h with
  | fresh h => exact h.sound
  | resolving r _ ih => exact ih.resolving r
  | perform hcall _ ih => exact ih.perform hcall

end Connection

end VectorBridge
