import VectorBridge.Proofs.Family.Walking
import VectorBridge.Proofs.Milvus.Storage
/-!
# Reading a Milvus collection to its end

A collection is read whole in batches, each from the offset where the one before it has
ended. How far a batch brings the reading is up to the server, which may return more rows
than asked for. But a batch that is not the last has at least the rows it asked for, and
none begins at the end of the window, so seventeen rounds are enough whatever they are
answered.

A walk over pages goes no further than the whole pages that the window has room for. So
what can be fetched at once need not be reached page by page: the window is no multiple of
the size of a page.
-/

namespace VectorBridge

namespace Milvus

section

variable {τ : Type} [Server τ] {c : Opened} {filter : Option Expr} {t t' : τ}

/-- A batch of the rows from an offset on, as items, and the offset of the next batch. A
batch that comes short is the last one, and one that reaches the end of the window fails. -/
def readBatch (c : Opened) (filter : Option Expr) (offset : Nat) :
    Action τ (List Item × Option Nat) := do
  let limit := min batchSize (window - offset)
  let rows ← (Server.query c.name filter offset limit).toAction
  let items := rows.map (itemOf c.schema)
  if rows.length < limit then pure (items, none)
  else if window ≤ offset + rows.length then
    throw (.limitExceeded s!"Milvus queries stop at {window} rows, narrow the filter")
  else pure (items, some (offset + rows.length))

theorem readBatch_of_rows {offset : Nat} {rows : List Row}
    (hquery : (Server.query c.name filter offset (min batchSize (window - offset))).toAction t =
      (.ok rows, t')) :
    readBatch c filter offset t =
      (if rows.length < min batchSize (window - offset) then
        .ok (rows.map (itemOf c.schema), none)
      else if window ≤ offset + rows.length then
        .error (.limitExceeded s!"Milvus queries stop at {window} rows, narrow the filter")
      else .ok (rows.map (itemOf c.schema), some (offset + rows.length)), t') := by
  rw [readBatch, Step.bind_of_ok hquery]
  split
  · rfl
  · split <;> rfl

/-- At most this many batches follow one at an offset. -/
def batchesAfter (offset : Nat) : Nat := (window - offset - 1) / batchSize

/-- A batch at an offset within the window. -/
def WithinWindow (n offset : Nat) (_ : τ) : Prop := offset < window ∧ n = batchesAfter offset

/-- Reading from an offset on is reading a batch and then from the next offset on. -/
theorem readFrom_eq_readBatch {n offset : Nat} (h : WithinWindow n offset t) :
    readFrom c filter offset t = (readBatch c filter offset >>= goOn (readFrom c filter)) t := by
  rw [readFrom, dif_pos h.1]
  rcases hquery : (Server.query c.name filter offset (min batchSize (window - offset))).toAction t
    with ⟨e | rows, t'⟩
  · have hbatch : readBatch c filter offset t = (.error e, t') := by
      rw [readBatch, Step.bind_of_error hquery]
    rw [Step.bind_of_error hquery, Step.bind_of_error hbatch]
  rw [Step.bind_of_ok hquery, Step.bind_apply, readBatch_of_rows hquery]
  by_cases hshort : rows.length < min batchSize (window - offset)
  · simp only [if_pos hshort, dif_pos hshort]
    rfl
  simp only [if_neg hshort, dif_neg hshort]
  by_cases hend : window ≤ offset + rows.length
  · -- past the window nothing is asked of the server any more
    rw [if_pos hend, readFrom, dif_neg (Nat.not_lt.2 hend)]
    rfl
  · rw [if_neg hend]
    rfl

/-- A batch that names another is full, and the other lies within the window. -/
theorem withinWindow_of_readBatch {n offset next : Nat} {items : List Item}
    (h : WithinWindow n offset t)
    (hbatch : readBatch c filter offset t = (.ok (items, some next), t')) :
    ∃ m < n, WithinWindow m next t' := by
  obtain ⟨hoffset, rfl⟩ := h
  obtain ⟨rows, t₁, -, hbatch⟩ := Step.bind_eq_ok_iff.1 hbatch
  split at hbatch
  · cases hbatch
  · split at hbatch
    · cases hbatch
    · rename_i hfull hleft
      cases hbatch
      refine ⟨batchesAfter (offset + rows.length), ?_, Nat.lt_of_not_le hleft, rfl⟩
      simp only [batchesAfter, batchSize, window] at *
      omega

/-- **A collection is read to its end in seventeen rounds at most, on any server**, and
every batch begins within the window. -/
theorem rounds_readFrom (c : Opened) (filter : Option Expr) (t : τ) :
    ∃ later, Rounds (readBatch c filter) 0 later t (readFrom c filter 0 t) ∧
      later.length ≤ 16 ∧ ∀ offset ∈ 0 :: later, offset < window := by
  have hstart : WithinWindow 16 0 t := ⟨by decide, by decide⟩
  obtain ⟨later, hrounds, hlength, hplaces⟩ :=
    exists_rounds readFrom_eq_readBatch withinWindow_of_readBatch hstart
  refine ⟨later, hrounds, hlength, List.forall_mem_cons.2 ⟨hstart.1, fun offset hoffset => ?_⟩⟩
  obtain ⟨-, -, hwithin, -⟩ := hplaces offset hoffset
  exact hwithin

end

/-! ## Walks over pages -/

variable {I : Memory → Prop} {m m' : Memory} {name : String} {c : Opened} {s : Stored}
variable {filter : Option Expr} {token : Option PageToken} {offset size : Nat}

/-- A page within the window shows the rows at its offset. -/
theorem readPage_of_le (ho : storage.Opened family I m name c s) (htoken : StartsAt token offset)
    (hsize : 0 < size) (hle : offset + size ≤ window) :
    family.readPage c filter ⟨token, size⟩ m =
      (.ok ⟨((storage.passing s filter).drop offset).take size,
        if offset + size ≤ (storage.passing s filter).length then some (.offset (offset + size))
        else none⟩, m) := by
  obtain rfl := opened_eq ho
  have hread : rowsAt ⟨name, s.schema⟩ filter size offset m =
      (.ok (((s.passing filter).drop offset).take size), m) := by
    rw [rowsAt, if_neg (Nat.not_lt_of_le hle)]
    exact Call.toAction_of_ok (query_apply ho.held hle)
  rw [readPage_eq]
  exact Storage.pageAt_of_read htoken hsize hread (by rw [passing_eq, List.map_take, List.map_drop])

/-- A page that would end beyond the window is refused. -/
theorem readPage_of_lt (htoken : StartsAt token offset) (hlt : window < offset + size) :
    family.readPage c filter ⟨token, size⟩ m =
      (.error (.limitExceeded s!"Milvus pages end at row {window}"), m) := by
  rw [readPage_eq, Storage.pageAt, htoken size, Step.bind_of_ok (Action.ofResult_apply _ m),
    rowsAt, if_pos hlt]
  rfl

/-- So many rows stand on whole pages within the window. -/
def pagedRows : Nat := window / PageRequest.defaultSize * PageRequest.defaultSize

/-- The ids that a walk over pages finds from a request on. -/
def pagedIds (found : List Item) (request : PageRequest) : Action Memory (List String) := fun m =>
  (request.offset.bind fun offset =>
    if found.length < pagedRows then .ok ((found.drop offset).map (·.id))
    else .error (.limitExceeded s!"Milvus pages end at row {window}"), m)

/-- A walk is at a page, and `n` rows are left. -/
def AtPage (m : Memory) (found : List Item) (n : Nat) (request : PageRequest) (m' : Memory) :
    Prop :=
  m' = m ∧ request.size = PageRequest.defaultSize ∧ ∃ k,
    StartsAt request.token (k * PageRequest.defaultSize) ∧
      k * PageRequest.defaultSize ≤ found.length ∧ n = found.length - k * PageRequest.defaultSize

/-- A walk from a page on is the page and a walk from the next one on. -/
theorem pagedIds_eq_findPage (ho : storage.Opened family I m name c s) {n : Nat}
    {request : PageRequest} (h : AtPage m (storage.passing s filter) n request m') :
    pagedIds (storage.passing s filter) request m' =
      (Adapter.findPage (family.readPage c filter) request >>=
        goOn (pagedIds (storage.passing s filter))) m' := by
  obtain ⟨rfl, hsize, k, htoken, hle, -⟩ := h
  obtain ⟨token, size⟩ := request
  obtain rfl : size = PageRequest.defaultSize := hsize
  have hpos : 0 < PageRequest.defaultSize := by decide
  rw [pagedIds, htoken]
  by_cases hwithin : k * PageRequest.defaultSize + PageRequest.defaultSize ≤ window
  · rw [Step.bind_of_ok (findPage_of_ok (readPage_of_le ho htoken hpos hwithin))]
    by_cases hfull : k * PageRequest.defaultSize + PageRequest.defaultSize ≤
        (storage.passing s filter).length
    · simp only [if_pos hfull, Option.map_some]
      rw [goOn_some_apply, pagedIds, PageRequest.next, startsAt_offset]
      simp only [Except.bind]
      split
      · rw [Except.map, ← List.map_append, ← List.drop_drop, List.take_append_drop]
      · rfl
    · -- the last page stands within the window, and so do all the rows
      have hroom : (storage.passing s filter).length < pagedRows := by
        simp only [pagedRows, window, PageRequest.defaultSize] at *
        omega
      simp only [if_neg hfull, Except.bind, if_pos hroom]
      rw [List.take_of_length_le (by rw [List.length_drop]; omega)]
      rfl
  · -- the pages before this one have shown as many rows as there is room for
    have hroom : ¬ (storage.passing s filter).length < pagedRows := by
      simp only [pagedRows, window, PageRequest.defaultSize] at *
      omega
    rw [Step.bind_of_error (findPage_of_error (readPage_of_lt htoken (Nat.lt_of_not_le hwithin)))]
    simp only [Except.bind, if_neg hroom]

/-- A page that promises another is full, and the other is the next page. -/
theorem atPage_of_findPage (ho : storage.Opened family I m name c s) {n : Nat}
    {request next : PageRequest} {ids : List String} {m'' : Memory}
    (h : AtPage m (storage.passing s filter) n request m')
    (hround : Adapter.findPage (family.readPage c filter) request m' =
      (.ok (ids, some next), m'')) :
    ∃ k < n, AtPage m (storage.passing s filter) k next m'' := by
  obtain ⟨rfl, hsize, k, htoken, hle, rfl⟩ := h
  obtain ⟨token, size⟩ := request
  obtain rfl : size = PageRequest.defaultSize := hsize
  have hpos : 0 < PageRequest.defaultSize := by decide
  by_cases hwithin : k * PageRequest.defaultSize + PageRequest.defaultSize ≤ window
  · rw [findPage_of_ok (readPage_of_le ho htoken hpos hwithin)] at hround
    by_cases hfull : k * PageRequest.defaultSize + PageRequest.defaultSize ≤
        (storage.passing s filter).length
    · simp only [if_pos hfull, Option.map_some] at hround
      cases hround
      refine ⟨_, ?_, rfl, rfl, k + 1, ?_, ?_, rfl⟩
      · rw [Nat.succ_mul]
        omega
      · rw [Nat.succ_mul]
        exact startsAt_offset _
      · rwa [Nat.succ_mul]
    · simp only [if_neg hfull] at hround
      cases hround
  · rw [findPage_of_error (readPage_of_lt htoken (Nat.lt_of_not_le hwithin))] at hround
    cases hround

/-- **What walks are shown on a Milvus server**: pages while whole pages have room for the
rows that pass, and all of these at once while they are fewer than the window. -/
theorem walks : storage.Walks (family (τ := Memory)) (fun _ => True) (· < pagedRows)
    (· < window) where
  length_lt ho := storage.length_passing_lt ho.held
  pages := by
    intro m name c s ho filter
    have hstart : AtPage m (storage.passing s filter) (storage.passing s filter).length
        (.first PageRequest.defaultSize) m :=
      ⟨rfl, rfl, 0, by rw [Nat.zero_mul]; exact startsAt_none, by omega, by omega⟩
    obtain ⟨later, hrounds, hlength, -⟩ :=
      exists_rounds (pagedIds_eq_findPage ho) (atPage_of_findPage ho) hstart
    exact ⟨later, _, hrounds, hlength, okIff_ite _ _ _⟩
  fetchAll ho filter := ⟨_, fetchAll_of_opened ho filter, okIff_ite _ _ _⟩

end Milvus

end VectorBridge
