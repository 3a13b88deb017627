import VectorBridge.Query
/-!
# Results row by row

A result is kept column by column, and its hits are its rows: what stands at one place
of every column, as far as every column reaches. A result that is made of hits has
columns of one length, so no entry is left over. One that is read from JSON has the
columns that stand there, each read for itself, and they have one length exactly where
the lists that stand there do.
-/

namespace VectorBridge

/-- A list is decoded element by element. -/
theorem Json.length_of_listOf? {α : Type} {decode : Json → Option α} {j : Json} {l : List α}
    (h : listOf? decode j = some l) : ∃ elems, j = .arr elems ∧ elems.length = l.length := by
  cases j with
  | arr elems =>
    refine ⟨elems, rfl, ?_⟩
    rw [listOf?] at h
    induction elems generalizing l with
    | nil =>
      cases h
      rfl
    | cons v vs ih =>
      rw [List.mapM_cons] at h
      simp only [Option.bind_eq_bind, Option.bind_eq_some_iff, Option.pure_def,
        Option.some.injEq] at h
      obtain ⟨a, -, as, has, rfl⟩ := h
      rw [List.length_cons, List.length_cons, ih has]
  | _ => cases h

namespace QueryResult

/-! ## Rows of any result -/

/-- The columns have one length. -/
structure Aligned (r : QueryResult) : Prop where
  documents : r.documents.length = r.length
  metadatas : r.metadatas.length = r.length
  embeddings : r.embeddings.length = r.length
  scores : r.scores.length = r.length

/-- The hit that stands at one place of every column. -/
def row? (r : QueryResult) (i : Nat) : Option Hit := do
  let id ← r.ids[i]?
  let document ← r.documents[i]?
  let metadata ← r.metadatas[i]?
  let embedding ← r.embeddings[i]?
  let score ← r.scores[i]?
  some ⟨{ id, document, metadata, embedding }, score⟩

/-- **The hits are the rows**, of uneven columns too. -/
theorem getElem?_hits (r : QueryResult) (i : Nat) : r.hits[i]? = r.row? i := by
  simp only [hits, row?, List.getElem?_map, List.zip, List.getElem?_zipWith]
  cases r.ids[i]? <;> cases r.documents[i]? <;> cases r.metadatas[i]? <;>
    cases r.embeddings[i]? <;> cases r.scores[i]? <;> rfl

/-- There are as many hits as the shortest column has entries. -/
theorem length_hits (r : QueryResult) :
    r.hits.length = min (min (min (min r.length r.documents.length) r.metadatas.length)
      r.embeddings.length) r.scores.length := by
  simp only [hits, List.length_map, List.length_zip, length]

theorem Aligned.length_hits {r : QueryResult} (h : r.Aligned) : r.hits.length = r.length := by
  rw [QueryResult.length_hits, h.documents, h.metadatas, h.embeddings, h.scores]
  simp only [Nat.min_self]

/-- The columns of a list of hits have one length, that of the list. -/
theorem aligned_ofSorted (ranking : Ranking) (hits : List Hit) :
    (ofSorted ranking hits).Aligned := by
  constructor <;> simp only [ofSorted, length, List.length_map]

/-- The rows of a list of hits are the hits. -/
theorem hits_ofSorted (ranking : Ranking) (hits : List Hit) :
    (ofSorted ranking hits).hits = hits := by
  induction hits with
  | nil => rfl
  | cons hit hits ih => exact congrArg (hit :: ·) ih

/-! ## Where results come from -/

/-- What a result may come from: nothing at all, a list of hits, or JSON. -/
inductive Source where
  | nothing (ranking : Ranking)
  | found (ranking : Ranking) (hits : List Hit)
  | written (j : Json)

/-- The columns of a written result. -/
def columnNames : List String := ["ids", "documents", "metadatas", "embeddings", "scores"]

/-- The list that a written result has for a column. -/
def writtenColumn (j : Json) (name : String) : List Json :=
  ((Json.Record.ofJson? ("ranking" :: columnNames) j).bind fun record =>
    (Keyed.get? name record.values).bind Json.arr?).getD []

namespace Source

/-- The result of a source, unless it is JSON that is refused. -/
def result? : Source → Option QueryResult
  | nothing ranking => some (.empty ranking)
  | found ranking hits => some (.ofHits ranking hits)
  | written j => ofJson? j

/-- Whether no column of the source is longer than another one: hits come row by row,
and written columns are lists of one length. -/
def Even : Source → Prop
  | nothing _ | found _ _ => True
  | written j =>
    ∀ name ∈ columnNames, (writtenColumn j name).length = (writtenColumn j "ids").length

end Source

/-- A column that is there was written as a list of its length. -/
theorem length_writtenColumn {α : Type} {decode : Json → Option α} {j : Json} {name : String}
    {record : Json.Record} {column : List α}
    (hj : Json.Record.ofJson? ("ranking" :: columnNames) j = some record)
    (h : record.required name (Json.listOf? decode) = some column) :
    (writtenColumn j name).length = column.length := by
  obtain ⟨v, hv, hlist⟩ := Option.bind_eq_some_iff.1 h
  obtain ⟨elems, rfl, hlength⟩ := Json.length_of_listOf? hlist
  rw [writtenColumn, hj, Option.bind_some, hv]
  exact hlength

/-- **A result that is read has one length in every column exactly when it was written
so.** -/
theorem aligned_ofJson? {j : Json} {r : QueryResult} (h : ofJson? j = some r) :
    r.Aligned ↔ (Source.written j).Even := by
  simp only [ofJson?, Option.bind_eq_bind, Option.bind_eq_some_iff, Option.pure_def,
    Option.some.injEq] at h
  obtain ⟨record, hj, ranking, -, ids, hids, documents, hdocuments, metadatas, hmetadatas,
    embeddings, hembeddings, scores, hscores, rfl⟩ := h
  simp only [Source.Even, columnNames, List.forall_mem_cons, length_writtenColumn hj hids,
    length_writtenColumn hj hdocuments, length_writtenColumn hj hmetadatas,
    length_writtenColumn hj hembeddings, length_writtenColumn hj hscores]
  constructor
  · intro haligned
    exact ⟨trivial, haligned.documents, haligned.metadatas, haligned.embeddings, haligned.scores,
      nofun⟩
  · rintro ⟨-, hdocuments, hmetadatas, hembeddings, hscores, -⟩
    exact ⟨hdocuments, hmetadatas, hembeddings, hscores⟩

/-- **The columns of a result stand side by side** wherever its source has no column that
is longer than another: it then has as many hits as ids, and in any case the hit at a
place is made of what the columns have at that place. -/
theorem aligned_iff_even {source : Source} {r : QueryResult} (h : source.result? = some r) :
    (r.Aligned ↔ source.Even) ∧ (source.Even → r.hits.length = r.length) ∧
      ∀ i, r.hits[i]? = r.row? i := by
  have haligned : r.Aligned ↔ source.Even := by
    cases source with
    | nothing ranking =>
      obtain rfl := Option.some.inj h
      exact iff_of_true (aligned_ofSorted ranking []) trivial
    | found ranking hits =>
      obtain rfl := Option.some.inj h
      exact iff_of_true (aligned_ofSorted ranking _) trivial
    | written j => exact aligned_ofJson? h
  exact ⟨haligned, fun heven => (haligned.2 heven).length_hits, r.getElem?_hits⟩

/-- A result of two rows, written as a list of its columns. -/
theorem aligned_iff_even_of_two_rows :
    let source := Source.written <| .arr [.str "distance", .arr [.str "a", .str "b"],
      .arr [.null, .str "text"], .arr [.obj [("n", .int 1)], .obj []],
      .arr [.null, .arr [.int 1]], .arr [.int 1, .int 2]]
    ∃ r, source.result? = some r ∧ ((r.Aligned ↔ source.Even) ∧
      (source.Even → r.hits.length = r.length) ∧ ∀ i, r.hits[i]? = r.row? i) ∧
      source.Even ∧ r.length = 2 :=
  ⟨_, rfl, aligned_iff_even rfl, by unfold Source.Even; decide, rfl⟩

/-- **A result may be read whose columns do not stand side by side**: an id that no other
column has an entry for makes no hit. -/
theorem misaligned_of_lone_id :
    let j : Json := .obj [("ranking", .str "distance"), ("ids", .arr [.str "a"]),
      ("documents", .arr []), ("metadatas", .arr []), ("embeddings", .arr []), ("scores", .arr [])]
    ∃ r, ofJson? j = some r ∧ ¬ r.Aligned ∧ r.length = 1 ∧ r.hits = [] :=
  ⟨_, rfl, fun h => Nat.zero_ne_one h.documents, rfl, rfl⟩

end QueryResult

end VectorBridge
