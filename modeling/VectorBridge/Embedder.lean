import VectorBridge.Error
import VectorBridge.Item
/-!
# Embedding providers and connection context

A provider turns texts into vectors. It is told the collection and the
model that seems to have made the vectors already stored there. A context
carries the provider and the hints of one connection.
-/

namespace VectorBridge

/-- The metadata key that records the model of a collection's vectors. -/
def embeddingModelKey : String := "_embedding_model"

/-- What a provider is asked. -/
structure EmbeddingRequest where
  collection : String
  texts : List String
  modelHint : Option String
  deriving DecidableEq, Repr, Inhabited

namespace EmbeddingRequest

def toJson (r : EmbeddingRequest) : Json :=
  .ofFields [("collection", .str r.collection), ("texts", .arr (r.texts.map .str)),
    ("hint", .ofString? r.modelHint)]

end EmbeddingRequest

/-- A provider: its answer to a request, given the requests before it,
latest first. -/
structure Embedder where
  answer : List EmbeddingRequest → EmbeddingRequest → Result (List Embedding)

/-- The settings of one connection. -/
structure Context where
  profileName : Option String
  modelHints : Keyed String String
  embedder : Option Embedder

namespace Context

/-- A context without provider and hints. -/
def empty : Context := ⟨none, [], none⟩

/-- The model recorded in metadata. -/
def recordedModel? (metadata : Metadata) : Option String :=
  (Keyed.get? embeddingModelKey metadata).bind Json.str?

/-- The model of a collection: the configured hint, else the one recorded in
the collection's metadata, else the one recorded in a sample item. -/
def modelHint (c : Context) (collection : String) (metadata sample : Option Metadata) :
    Option String :=
  Keyed.get? collection c.modelHints <|> metadata.bind recordedModel? <|>
    sample.bind recordedModel?

/-- One vector per text, from the provider. The state is the list of the
requests made, latest first. -/
def embed (c : Context) (collection : String) (texts : List String)
    (metadata : Option Metadata) : Action (List EmbeddingRequest) (List Embedding) := fun log =>
  match c.embedder with
  | none => (.error (.invalidInput
      "texts were supplied without vectors and no embedding provider is configured"), log)
  | some provider =>
    let request : EmbeddingRequest :=
      ⟨collection, texts, c.modelHint collection metadata none⟩
    let answer := match provider.answer log request with
      | .error e => .error e
      | .ok vectors =>
        if vectors.length = texts.length then .ok vectors
        else .error (.backend
          s!"embedding provider returned {vectors.length} vectors for {texts.length} texts")
    (answer, request :: log)

end Context

/-! ## Providers for trying things out -/

namespace Embedder

/-- The 32-bit hash of some bytes, from a start value. -/
def hash (start : UInt32) (bytes : List UInt8) : UInt32 :=
  bytes.foldl (fun h b => (h ^^^ b.toUInt32) * 0x01000193) start

/-- The binary32 of a small number. -/
def float32OfNat (n : Nat) : Float32 :=
  Binary32.ofParts false (BinaryFormat.binary32.roundBits n 0)

/-- A vector that depends on the text alone: each component is a hash of the
text, in thousandths. -/
def hashed (dimension : Nat) (text : String) : Embedding :=
  (List.range dimension).map fun i =>
    let h := hash (0x811c9dc5 ^^^ UInt32.ofNat i) text.toUTF8.toList
    float32OfNat (h.toNat % 1000) / float32OfNat 1000

/-- The provider of hashed vectors. -/
def ofHash (dimension : Nat) : Embedder :=
  ⟨fun _ request => .ok (request.texts.map (hashed dimension))⟩

/-- Gives every text the same vector. -/
def constant (v : Embedding) : Embedder := ⟨fun _ request => .ok (request.texts.map fun _ => v)⟩

/-- Gives the same vectors whatever it is asked. -/
def always (vectors : List Embedding) : Embedder := ⟨fun _ _ => .ok vectors⟩

/-- Always fails. -/
def failing (message : String) : Embedder := ⟨fun _ _ => .error (.backend message)⟩

end Embedder

end VectorBridge
