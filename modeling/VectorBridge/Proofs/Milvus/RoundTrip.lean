import VectorBridge.Proofs.Family.ById
import VectorBridge.Proofs.Milvus.Pushdown
import VectorBridge.Proofs.Milvus.StringKeys
/-!
# Rows read back

A row has its document, its vector and the metadata of its item side by side; an item
whose metadata has the name of one of the schema's fields is refused. A row cannot
lack a document, so a missing one is written as the empty text, and the empty text is
read as none. A vector is written as binary64 numbers and read back without loss when
it is finite.
-/

namespace VectorBridge

namespace Milvus

/-- A document as rows keep it: the empty one is none. -/
def keptDocument (document : Option String) : Option String :=
  document.filter fun d => !d.isEmpty

/-! ## The row of an item -/

section Rows

variable {S : Schema} {item : Item} {key : MappedId} {row : Row}

/-- The vector is written as its numbers. -/
theorem get?_vector_rowOf (hS : S.Apart) (h : rowOf S item key = .ok row) :
    Keyed.get? S.vectorField row = some (Embedding.toJson (item.embedding.getD [])) := by
  rw [rowOf] at h
  split at h
  · cases h
  · obtain rfl := Except.ok.inj h
    split
    · rw [Keyed.get?_insert_of_ne hS.vector_ne_given.symm, Keyed.get?_insert_self]
    · rw [Keyed.get?_insert_self]

theorem document_itemOf (hS : S.Apart) (hvec : S.vectorField ≠ documentFieldName)
    (h : rowOf S item key = .ok row) : (itemOf S row).document = keptDocument item.document := by
  have hstored : Keyed.get? documentFieldName (Keyed.erase S.primaryField row) =
      some (.str (item.document.getD "")) := by
    rw [Keyed.get?_erase_of_ne hS.primary_ne_document]
    exact get?_document_rowOf h hvec
  rw [itemOf]
  simp only [hstored]
  cases item.document with
  | none => rfl
  | some d =>
    rw [Option.getD_some, keptDocument, Option.filter_some]
    cases d.isEmpty <;> rfl

theorem embedding_itemOf (hS : S.Apart) (hvec : S.vectorField ≠ documentFieldName)
    (h : rowOf S item key = .ok row) {e : Embedding} (hvector : item.embedding = some e)
    (hfinite : e.Finite) : (itemOf S row).embedding = item.embedding := by
  have hstored : Keyed.get? S.vectorField
      (Keyed.erase documentFieldName (Keyed.erase S.primaryField row)) =
      some (.arr (e.map Json.ofFloat32)) := by
    rw [Keyed.get?_erase_of_ne hvec.symm, Keyed.get?_erase_of_ne hS.primary_ne_vector,
      get?_vector_rowOf hS h, hvector]
    rfl
  have hread : (itemOf S row).embedding = vectorOf?
      (Keyed.erase documentFieldName (Keyed.erase S.primaryField row)) S.vectorField := rfl
  rw [hread, vectorOf?, hstored, hvector]
  exact congrArg some (Embedding.ofNumbers_map hfinite)

/-- **A row is read as its item**, an empty document aside. -/
theorem agrees_itemOf_rowOf (hS : S.Apart) (hvec : S.vectorField ≠ documentFieldName)
    (hplain : Metadata.Plain item.metadata) (hmaps : S.Maps item.id key)
    (h : rowOf S item key = .ok row) {e : Embedding} (hvector : item.embedding = some e)
    (hfinite : e.Finite) : (item.keeping keptDocument).Agrees (itemOf S row) := by
  have hid := (keys_rowOf hS hplain hmaps h).2
  have hmetadata := get?_metadata_rowOf hplain h
  have hembedding := embedding_itemOf hS hvec h hvector hfinite
  exact ⟨hid, document_itemOf hS hvec h, hmetadata, hembedding⟩

end Rows

/-! ## Batches of rows -/

variable {m m' : Memory} {name : String} {s : Stored} {c : Opened}

/-- **Where keys are strings, the family reads back what it writes**, on any server that
calls lead to. -/
theorem roundTrips : storage.RoundTrips (family (τ := Memory)) Memory.Filed
    (fun s _ => s.schema.idKind ≠ .integer)
    (fun s _ => s.schema.vectorField ≠ documentFieldName) keptDocument where
  write := by
    intro m m' name c s batch ho hplain hids hwrite
    obtain rfl := opened_eq ho
    have h : s.Filed := ho.inv name s ho.held
    obtain ⟨keys, rows, hassign, hmade, rfl⟩ :=
      write_eq_ok (c := ⟨name, s.schema⟩) ho.held rfl hwrite
    have hheld' : Keyed.get? name (Keyed.insert name (s.written rows) m.collections) = _ :=
      Keyed.get?_insert_self _ _ _
    refine ⟨s.written rows, hheld', fun hkind item hitem e hvector hfinite _ hvec => ?_⟩
    have hmaps := maps_of_assignKeys (c := ⟨name, s.schema⟩) h.apart hkind hassign
    obtain ⟨row, -, ⟨key, hkey, hof⟩, hfetch⟩ := fetch_of_written h hkind
      (forall₂_rowOf hmaps hmade) (fun item row ⟨_, hkey, hof⟩ => key_rowOf h.apart hkind hkey hof)
      hids hheld' hitem
    obtain ⟨c, hattach⟩ := lawful.attach_of_held hheld'
    obtain ⟨s', hs', rfl⟩ := attach_eq_ok hattach
    obtain rfl := Option.some.inj (hs'.symm.trans hheld')
    exact ⟨_, itemOf s.schema row, hattach, hfetch,
      agrees_itemOf_rowOf h.apart hvec (hplain item hitem) hkey hof hvector hfinite⟩

/-- **Every item of a batch that is written under integer keys has its row**, made under a
key that its id may stand under. -/
theorem rows_of_batch (h : s.Sound) (hkind : s.schema.idKind = .integer)
    (hs : Keyed.get? c.name m.collections = some s) (hc : c.schema = s.schema)
    {batch : List Item} {keys : List MappedId} {rows : List Row}
    (hplain : ∀ item ∈ batch, Metadata.Plain item.metadata)
    (hassign : assignKeys c batch m = (.ok keys, m'))
    (hmade : rowsOf s.schema batch keys = .ok rows) :
    ∀ item ∈ batch, ∃ row ∈ (s.written rows).rows, ∃ key, s.schema.Maps item.id key ∧
      rowOf s.schema item key = .ok row := by
  obtain ⟨-, hkeys, hclears⟩ := assignKeys_eq_ok h hs hc hassign
  obtain ⟨hkeyed, -, -⟩ := rowsOf_eq_ok h hkeys hplain hmade
  have hdistinct : (rows.map s.schema.key).Nodup :=
    nodup_keys_of_stands (stands_of_rowsOf h hkind hkeys hplain hmade).1 (hclears hkind).distinct
  intro item hitem
  obtain ⟨row, hrow, key, hadmits, hof⟩ := exists_of_forall₂ (forall₂_rowOf hkeys hmade) hitem
  exact ⟨row, (mem_written h hkeyed hdistinct).2 (.inl hrow), key, hadmits.1, hof⟩

/-- **Where keys are integers, the family reads back what it writes** when they are apart,
on any server that calls without metadata under the reserved key lead to. -/
theorem roundTrips_integer : storage.RoundTrips (family (τ := Memory)) Memory.Sound
    (fun s s' => s.schema.idKind = .integer ∧ s'.KeysApart)
    (fun s _ => s.schema.vectorField ≠ documentFieldName) keptDocument where
  write := by
    intro m m' name c s batch ho hplain hids hwrite
    have hsound' : m'.Sound := by
      have hkept := guards.write ho.inv ho.attach hids hplain
      rwa [hwrite] at hkept
    obtain rfl := opened_eq ho
    have h : s.Sound := ho.inv name s ho.held
    obtain ⟨keys, rows, hassign, hmade, rfl⟩ :=
      write_eq_ok (c := ⟨name, s.schema⟩) ho.held rfl hwrite
    have hheld' : Keyed.get? name (Keyed.insert name (s.written rows) m.collections) = _ :=
      Keyed.get?_insert_self _ _ _
    refine ⟨s.written rows, hheld', fun ⟨hkind, hapart⟩ item hitem e hvector hfinite _ hvec => ?_⟩
    obtain ⟨row, hrow, key, hmaps, hof⟩ :=
      rows_of_batch (c := ⟨name, s.schema⟩) h hkind ho.held rfl hplain hassign hmade item hitem
    have hagrees := agrees_itemOf_rowOf h.apart hvec (hplain item hitem) hmaps hof hvector hfinite
    obtain ⟨c, hattach⟩ := lawful.attach_of_held hheld'
    have hfetch := fetch_of_keysApart ⟨hsound', hattach, hheld'⟩ hkind hapart hrow
    rw [show (itemOf (s.written rows).schema row).id = item.id from hagrees.id] at hfetch
    exact ⟨c, itemOf s.schema row, hattach, hfetch, hagrees⟩

end Milvus

end VectorBridge
