import VectorBridge.Filter.Clause
import VectorBridge.Item
/-!
# Queries and their results

A query asks for the nearest items of some vectors or texts. Hits carry a
distance or a similarity; a result lists them best first, column by
column. Scores that cannot be compared count as equal.
-/

namespace VectorBridge

/-- Which scores are better: small distances or large similarities. -/
inductive Ranking where
  | distance
  | similarity
  deriving DecidableEq, Repr, Inhabited

namespace Ranking

def name : Ranking → String
  | distance => "distance"
  | similarity => "similarity"

def toJson (r : Ranking) : Json := .str r.name

def ofJson? (j : Json) : Option Ranking :=
  (Json.choice? j).bind fun s => [distance, similarity].find? fun r => r.name = s

/-- The order of two scores, better first. -/
def bestFirst (r : Ranking) (a b : Float32) : Ordering :=
  let o := (Binary32.compare? a b).getD .eq
  match r with
  | distance => o
  | similarity => o.swap

/-- Puts an entry behind the last one, in a list kept worst first, that it
is not strictly better than. -/
def place {α : Type} (r : Ranking) (score : α → Float32) (x : α) : List α → List α
  | [] => [x]
  | y :: ys =>
    if r.bestFirst (score x) (score y) = .lt then y :: place r score x ys else x :: y :: ys

/-- Entries best first; entries that do not differ keep their order. -/
def sort {α : Type} (r : Ranking) (score : α → Float32) (l : List α) : List α :=
  (l.foldl (fun sorted x => r.place score x sorted) []).reverse

/-- The best `limit` entries. -/
def top {α : Type} (r : Ranking) (score : α → Float32) (limit : Nat) (l : List α) : List α :=
  (r.sort score l).take limit

end Ranking

/-- An item found by a query, with its score. -/
structure Hit where
  item : Item
  score : Float32
  deriving Inhabited

/-- The hits of one query vector, column by column. -/
structure QueryResult where
  ranking : Ranking
  ids : List String
  documents : List (Option String)
  metadatas : List Metadata
  embeddings : List (Option Embedding)
  scores : List Float32
  deriving Inhabited

namespace QueryResult

/-- A result without hits. -/
def empty (ranking : Ranking) : QueryResult := ⟨ranking, [], [], [], [], []⟩

/-- The columns of a list of hits, in their order. -/
def ofSorted (ranking : Ranking) (hits : List Hit) : QueryResult :=
  { ranking
    ids := hits.map (·.item.id)
    documents := hits.map (·.item.document)
    metadatas := hits.map (·.item.metadata)
    embeddings := hits.map (·.item.embedding)
    scores := hits.map (·.score) }

/-- The result of a list of hits, best first. -/
def ofHits (ranking : Ranking) (hits : List Hit) : QueryResult :=
  ofSorted ranking (ranking.sort (·.score) hits)

/-- Number of hits. -/
def length (r : QueryResult) : Nat := r.ids.length

/-- The hits, row by row, as far as every column reaches. -/
def hits (r : QueryResult) : List Hit :=
  (((r.ids.zip r.documents).zip r.metadatas).zip r.embeddings).zip r.scores |>.map
    fun ((((id, document), metadata), embedding), score) =>
      ⟨{ id, document, metadata, embedding }, score⟩

def toJson (r : QueryResult) : Json :=
  .ofFields [
    ("ranking", r.ranking.toJson),
    ("ids", .arr (r.ids.map .str)),
    ("documents", .arr (r.documents.map .ofString?)),
    ("metadatas", .arr (r.metadatas.map .obj)),
    ("embeddings", .arr (r.embeddings.map fun e => (e.map Embedding.toJson).getD .null)),
    ("scores", .arr (r.scores.map .ofFloat32))]

def ofJson? (j : Json) : Option QueryResult := do
  let r ← Json.Record.ofJson?
    ["ranking", "ids", "documents", "metadatas", "embeddings", "scores"] j
  let ranking ← r.required "ranking" Ranking.ofJson?
  let ids ← r.required "ids" (Json.listOf? Json.str?)
  let documents ← r.required "documents" (Json.listOf? (Json.optionOf? Json.str?))
  let metadatas ← r.required "metadatas" (Json.listOf? Json.fields?)
  let embeddings ← r.required "embeddings" (Json.listOf? (Json.optionOf? Embedding.ofJson?))
  let scores ← r.required "scores" (Json.listOf? Json.float32?)
  pure { ranking, ids, documents, metadatas, embeddings, scores }

end QueryResult

/-- What a query searches for. -/
inductive QueryInput where
  | vectors (vectors : List Embedding)
  | texts (texts : List String)
  deriving Inhabited

namespace QueryInput

def toJson : QueryInput → Json
  | vectors vs => .obj [("vectors", .arr (vs.map Embedding.toJson))]
  | texts ts => .obj [("texts", .arr (ts.map .str))]

def ofJson? (j : Json) : Option QueryInput := do
  let (name, content) ← Json.variant? j
  if name = "vectors" then
    (Json.listOf? Embedding.ofJson? content).map vectors
  else if name = "texts" then
    (Json.listOf? Json.str? content).map texts
  else none

end QueryInput

/-- A search for the `k` best items that pass a filter. -/
structure Query where
  input : QueryInput
  k : Nat
  filter : Option Filter
  deriving Inhabited

namespace Query

def toJson (q : Query) : Json :=
  .ofFields <| [("input", q.input.toJson), ("k", .nat q.k)] ++
    q.filter.toList.map fun f => ("filter", f.toJson)

def ofJson? (j : Json) : Option Query := do
  let r ← Json.Record.ofJson? ["input", "k", "filter"] j
  let input ← r.required "input" QueryInput.ofJson?
  let k ← r.required "k" Json.u64?
  let filter ← r.withDefault "filter" none (Json.optionOf? Filter.ofJson?)
  pure { input, k, filter }

end Query

end VectorBridge
