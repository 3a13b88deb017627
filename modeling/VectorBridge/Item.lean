import VectorBridge.Metric
/-!
# Items

What every backend stores in its own way: an id, a document, metadata and
an embedding. One metadata key is reserved for the id an item had before a
backend gave it one of its own.
-/

namespace VectorBridge

/-- Free-form fields of an item. -/
abbrev Metadata : Type := Json.Fields

/-- The metadata key under which an item keeps the id it was given, where its
backend has another one for it. -/
def givenIdKey : String := "_original_id"

/-- A stored item. -/
structure Item where
  id : String
  document : Option String
  metadata : Metadata
  embedding : Option Embedding
  deriving Inhabited

namespace Item

/-- Removes the reserved metadata. -/
def stripReserved (item : Item) : Item :=
  { item with metadata := Keyed.erase givenIdKey item.metadata }

def toJson (item : Item) : Json :=
  .ofFields <|
    [("id", .str item.id)] ++
    (item.document.toList.map fun d => ("document", .str d)) ++
    (if item.metadata.isEmpty then [] else [("metadata", .obj item.metadata)]) ++
    (item.embedding.toList.map fun v => ("embedding", v.toJson))

def ofJson? (j : Json) : Option Item := do
  let r ← Json.Record.ofJson? ["id", "document", "metadata", "embedding"] j
  let id ← r.required "id" Json.str?
  let document ← r.withDefault "document" none (Json.optionOf? Json.str?)
  let metadata ← r.withDefault "metadata" [] Json.fields?
  let embedding ← r.withDefault "embedding" none (Json.optionOf? Embedding.ofJson?)
  pure { id, document, metadata, embedding }

end Item

/-- A change to one stored item; an absent part stays as it is. -/
structure ItemUpdate where
  id : String
  document : Option String
  metadata : Option Metadata
  embedding : Option Embedding
  deriving Inhabited

namespace ItemUpdate

/-- The item with the supplied parts replaced. -/
def apply (u : ItemUpdate) (item : Item) : Item :=
  { item with
    document := u.document <|> item.document
    metadata := u.metadata.getD item.metadata
    embedding := u.embedding <|> item.embedding }

/-- Whether the update leaves the item with a vector of an older document:
the document changes and no vector comes with it. -/
def leavesStale (u : ItemUpdate) (item : Item) : Bool :=
  u.embedding.isNone && u.document.isSome && u.document != item.document

def toJson (u : ItemUpdate) : Json :=
  .ofFields <|
    [("id", .str u.id)] ++
    (u.document.toList.map fun d => ("document", .str d)) ++
    (u.metadata.toList.map fun m => ("metadata", .obj m)) ++
    (u.embedding.toList.map fun v => ("embedding", v.toJson))

def ofJson? (j : Json) : Option ItemUpdate := do
  let r ← Json.Record.ofJson? ["id", "document", "metadata", "embedding"] j
  let id ← r.required "id" Json.str?
  let document ← r.withDefault "document" none (Json.optionOf? Json.str?)
  let metadata ← r.withDefault "metadata" none (Json.optionOf? Json.fields?)
  let embedding ← r.withDefault "embedding" none (Json.optionOf? Embedding.ofJson?)
  pure { id, document, metadata, embedding }

end ItemUpdate

end VectorBridge
