import VectorBridge.Columnar.Directory
import VectorBridge.Proofs.Json.Injective
import VectorBridge.Proofs.Keyed
/-!
# Tables read back from their files

A table is written column by column and read batch by batch. Cutting the columns of a table
into the entries of some rows gives the columns of those rows, so a batch reads as the rows it
was cut from, whatever metadata, documents and flags they have; the batches, one after the
other, read as the table. A table whose vectors do not have the width it declares is refused
before anything is written.
-/

namespace VectorBridge

theorem Metric.parseLossy_name (m : Metric) : Metric.parseLossy m.name = m := by
  cases m <;> decide +kernel

namespace Columnar

/-! ## Reading entry by entry -/

section Lists

variable {α β ε : Type}

theorem mapM_eq_ok {f : α → Except ε β} {g : α → β} {l : List α}
    (h : ∀ a ∈ l, f a = .ok (g a)) : l.mapM f = .ok (l.map g) := by
  induction l with
  | nil => rfl
  | cons a l ih =>
    rw [List.forall_mem_cons] at h
    rw [List.mapM_cons, h.1, ih h.2]
    rfl

/-- A list is read when each of its places is. -/
theorem mapM_range_eq_ok {f : Nat → Except ε α} {l : List α}
    (h : ∀ i (hi : i < l.length), f i = .ok l[i]) : (List.range l.length).mapM f = .ok l := by
  induction l generalizing f with
  | nil => rfl
  | cons a l ih =>
    have hrest : (List.range l.length).mapM (fun i => f (i + 1)) = .ok l :=
      ih fun i hi => h (i + 1) (Nat.succ_lt_succ hi)
    rw [List.length_cons, List.range_succ_eq_map, List.mapM_cons, h 0 (Nat.succ_pos _),
      List.mapM_map]
    simp only [Function.comp_def, hrest]
    rfl

/-- Stretches of one length after the other make up a list, up to their end. -/
theorem flatten_stretches (l : List α) (m k : Nat) :
    ((List.range k).map fun i => (l.drop (i * m)).take m).flatten = l.take (k * m) := by
  induction k with
  | zero => simp
  | succ k ih =>
    rw [List.range_succ, List.map_append, List.flatten_append, ih, Nat.succ_mul, List.take_add]
    simp

end Lists

/-! ## Sheets -/

namespace Sheet

variable {t : Table}

/-- The columns of some rows; the vectors are of a width where it is declared. -/
def columnsOf (width : Option Nat) (rows : List Row) : List (String × Column) :=
  [("id", .texts (rows.map fun r => some r.id)),
    ("document", .texts (rows.map (·.document))),
    ("metadata", .texts (rows.map fun r => some (Json.obj r.metadata).text)),
    ("vector", .vectors width (rows.map (·.vector))),
    ("has_vector", .flags (rows.map fun r => some r.hasVector))]

/-- The vectors of a table have the width that it declares, and a column can declare it. -/
def Fits (t : Table) : Prop :=
  ∀ width, t.width = some width →
    width ≤ maxWidth ∧ ∀ row ∈ t.rows, row.vector.length = width

/-- **A table that fits has a sheet.** -/
theorem ofTable_of_fits (h : Fits t) :
    ofTable t =
      .ok ⟨[(metricNote, t.metric.name)], columnsOf t.width t.rows, t.rows.length⟩ := by
  have hvectors : vectorColumn t = .ok (.vectors t.width (t.rows.map (·.vector))) := by
    rw [vectorColumn]
    cases hwidth : t.width with
    | none => rfl
    | some width =>
      obtain ⟨hmax, hrows⟩ := h width hwidth
      have hnone : t.rows.find? (fun r => r.vector.length ≠ width) = none :=
        List.find?_eq_none.2 fun row hrow => by simpa using hrows row hrow
      simp only [hnone, if_neg (Nat.not_lt.2 hmax)]
  rw [ofTable, hvectors]
  rfl

/-- **A row of another width is refused**, the first one by its id. -/
theorem ofTable_of_misfit {width : Nat} (hwidth : t.width = some width)
    (h : ∃ row ∈ t.rows, row.vector.length ≠ width) :
    ∃ row ∈ t.rows, row.vector.length ≠ width ∧ ofTable t = .error (.malformed
      s!"row '{row.id}' has {row.vector.length} values in a column of width {width}") := by
  cases hfind : t.rows.find? (fun r => r.vector.length ≠ width) with
  | none =>
    obtain ⟨row, hrow, hne⟩ := h
    exact absurd hne (by simpa using List.find?_eq_none.1 hfind row hrow)
  | some row =>
    have hvectors : vectorColumn t = .error (.malformed
        s!"row '{row.id}' has {row.vector.length} values in a column of width {width}") := by
      rw [vectorColumn, hwidth]
      simp only [hfind]
    refine ⟨row, List.mem_of_find?_eq_some hfind, by simpa using List.find?_some hfind, ?_⟩
    rw [ofTable, hvectors]
    rfl

/-! ### Reading batches -/

/-- Metadata reads back from the text it is kept as. -/
def Reads (row : Row) : Prop := metadata? (Json.obj row.metadata).text = .ok row.metadata

/-- What has the text that it was read from is what was written. -/
theorem reads_of_text {row : Row}
    (h : (metadata? (Json.obj row.metadata).text).toOption.map (fun m => (Json.obj m).text) =
      some (Json.obj row.metadata).text) : Reads row := by
  rw [Reads]
  cases hread : metadata? (Json.obj row.metadata).text with
  | error e =>
    rw [hread] at h
    cases h
  | ok m =>
    rw [hread] at h
    have hobj : Json.obj m = Json.obj row.metadata := Json.text_injective (Option.some.inj h)
    rw [Json.obj.inj hobj]

/-- The batch of the rows from one on. -/
theorem batchFrom_columnsOf (notes : Keyed String String) (width : Option Nat) (rows : List Row)
    (start : Nat) :
    batchFrom ⟨notes, columnsOf width rows, rows.length⟩ start =
      ⟨columnsOf width ((rows.drop start).take batchSize),
        ((rows.drop start).take batchSize).length⟩ := by
  simp only [batchFrom, columnsOf, List.map_cons, List.map_nil, Column.slice, ← List.map_drop,
    ← List.map_take, List.length_take, List.length_drop]

/-- **A batch reads as the rows that it has the columns of.** -/
theorem rows_columnsOf (width : Option Nat) {rows : List Row} (h : ∀ row ∈ rows, Reads row) :
    RowBatch.rows ⟨columnsOf width rows, rows.length⟩ = .ok rows := by
  refine Eq.trans ?_ (mapM_range_eq_ok (f := RowBatch.row (rows.map fun r => some r.id)
    (rows.map (·.document)) (rows.map fun r => some (Json.obj r.metadata).text)
    (.vectors width (rows.map (·.vector))) (some (rows.map fun r => some r.hasVector))) ?_)
  · rfl
  · intro i hi
    have hreads : metadata? (Json.obj rows[i].metadata).text = .ok rows[i].metadata :=
      h rows[i] (List.getElem_mem hi)
    simp only [RowBatch.row, List.getElem?_map, List.getElem?_eq_getElem hi, Option.map_some,
      Option.join_some, Option.getD_some, hreads, Column.vectorAt, RowBatch.isOwn]
    rfl

/-- **A sheet reads as the table that it is the sheet of.** -/
theorem toTable_columnsOf (h : ∀ row ∈ t.rows, Reads row) :
    toTable ⟨[(metricNote, t.metric.name)], columnsOf t.width t.rows, t.rows.length⟩ = .ok t := by
  have hbatches : ((⟨[(metricNote, t.metric.name)], columnsOf t.width t.rows, t.rows.length⟩ :
      Sheet).batches).mapM RowBatch.rows =
        .ok ((List.range ((t.rows.length + batchSize - 1) / batchSize)).map fun k =>
          (t.rows.drop (k * batchSize)).take batchSize) := by
    rw [batches, List.mapM_map]
    refine mapM_eq_ok fun k _ => ?_
    rw [Function.comp_apply, batchFrom_columnsOf]
    exact rows_columnsOf t.width fun row hrow =>
      h row (List.mem_of_mem_drop (List.mem_of_mem_take hrow))
  -- the last batch reaches the end of the rows
  have hall : t.rows.length ≤ (t.rows.length + batchSize - 1) / batchSize * batchSize := by
    have hsize : batchSize = 1024 := rfl
    rw [hsize]
    omega
  have hwidth : (Keyed.get? "vector" (columnsOf t.width t.rows)).bind Column.width? = t.width := by
    simp [columnsOf, Keyed.get?_cons, Column.width?]
  have hmetric : ((Keyed.get? metricNote [(metricNote, t.metric.name)]).map
      Metric.parseLossy).getD .unknown = t.metric := by
    rw [Keyed.get?_cons, if_pos rfl, Option.map_some, Option.getD_some, Metric.parseLossy_name]
  rw [toTable, hbatches]
  simp only [hwidth, hmetric, bind, Except.bind, pure, Except.pure]
  rw [flatten_stretches, List.take_of_length_le hall]

end Sheet

/-! ## Files -/

namespace Directory

variable {d d' : Directory} {name : String} {t : Table}

/-- Directories take tables under the name: it is one of a table, and its file's name is not too
long. -/
def Takes (name : String) : Prop :=
  isTableName name = true ∧ (name ++ ending).length ≤ maxFileName

instance (name : String) : Decidable (Takes name) := inferInstanceAs (Decidable (_ ∧ _))

theorem fileName_of_takes (h : Takes name) : fileName name = .ok (name ++ ending) :=
  if_pos h.1

/-- A table that has a sheet is in its file from then on. -/
theorem write_of_sheet {sheet : Sheet} (hname : Takes name) (h : Sheet.ofTable t = .ok sheet) :
    d.write name t = .ok ⟨Keyed.insert (name ++ ending) (.table sheet) d.files⟩ := by
  simp only [write, fileName_of_takes hname, h, if_neg (Nat.not_lt.2 hname.2)]

theorem write_of_error {e : TransportError} (hname : Takes name)
    (h : Sheet.ofTable t = .error e) : d.write name t = .error e := by
  simp only [write, fileName_of_takes hname, h]

/-- What is read depends on the file of the name alone. -/
theorem read_insert_of_ne {other : String} (hne : other ≠ name) (file : File) :
    read ⟨Keyed.insert (name ++ ending) file d.files⟩ other = d.read other := by
  have hfiles : name ++ ending ≠ other ++ ending := fun heq =>
    hne (String.append_left_inj _ |>.1 heq).symm
  by_cases htable : isTableName other = true
  · have hfile : fileName other = .ok (other ++ ending) := if_pos htable
    simp only [read, hfile, Keyed.get?_insert_of_ne hfiles]
  · simp only [read, fileName, if_neg htable]

/-- **Tables survive their files.** A table that fits, with metadata that reads back from its text,
is read back as it was written, whatever its metric, rows and flags are and however many rows
there are, and no other table changes. A table that has a row of another width than it declares
is refused, and the directory, with what was stored before, stays as it was. -/
theorem tables_survive_files (hname : Takes name) :
    (Sheet.Fits t → (∀ row ∈ t.rows, Sheet.Reads row) →
      ∃ d', Store.write name t d = (.ok (), d') ∧ Store.read name d' = (.ok t, d') ∧
        ∀ other, other ≠ name → (Store.read other d').1 = (Store.read other d).1) ∧
    ∀ width, t.width = some width → (∃ row ∈ t.rows, row.vector.length ≠ width) →
      ∃ row ∈ t.rows, row.vector.length ≠ width ∧ Store.write name t d = (.error (.malformed
        s!"row '{row.id}' has {row.vector.length} values in a column of width {width}"), d) := by
  constructor
  · intro hfits hreads
    obtain ⟨sheet, hsheet, htable⟩ : ∃ sheet, Sheet.ofTable t = .ok sheet ∧
        sheet.toTable = .ok t :=
      ⟨_, Sheet.ofTable_of_fits hfits, Sheet.toTable_columnsOf hreads⟩
    have hread : read ⟨Keyed.insert (name ++ ending) (.table sheet) d.files⟩ name = .ok t := by
      simp only [read, fileName_of_takes hname, Keyed.get?_insert_self, htable]
    refine ⟨_, ?_, Prod.ext hread rfl, fun other hne => read_insert_of_ne hne _⟩
    show changing (fun d => d.write name t) d = _
    simp only [changing, write_of_sheet hname hsheet]
  · intro width hwidth hmisfit
    obtain ⟨row, hrow, hne, hsheet⟩ := Sheet.ofTable_of_misfit hwidth hmisfit
    refine ⟨row, hrow, hne, ?_⟩
    show changing (fun d => d.write name t) d = _
    simp only [changing, write_of_error hname hsheet]

/-- A row without a vector of its own. -/
def bare (id : String) (width : Nat) : Row := .ofItem width ⟨id, none, [], none⟩

/-- A new table with an item that has everything an item can have, and one that has nothing. -/
def mixed (width : Nat) : Table :=
  (Table.new width .dot).upsert [
    ⟨"a", some "", [("n", .int (-7)), ("tags", .arr [.str "\"x\"", .null])],
      [Binary32.ofParts true 0, Metric.one], true⟩,
    bare "b" 2]

/-- A table with all kinds of rows is read back, and is not replaced by one whose rows are too
narrow. -/
theorem tables_survive_files_of_mixed :
    Takes "docs.v1" ∧ Sheet.Fits (mixed 2) ∧ (∀ row ∈ (mixed 2).rows, Sheet.Reads row) ∧
    ∃ d' : Directory, Store.write "docs.v1" (mixed 2) Directory.empty = (.ok (), d') ∧
      Store.read "docs.v1" d' = (.ok (mixed 2), d') ∧
      ∃ row ∈ (mixed 3).rows, row.vector.length ≠ 3 ∧
        Store.write "docs.v1" (mixed 3) d' = (.error (.malformed
          s!"row '{row.id}' has {row.vector.length} values in a column of width {3}"), d') := by
  have hname : Takes "docs.v1" := by decide +kernel
  have hfits : Sheet.Fits (mixed 2) := by
    intro width hwidth
    obtain rfl : 2 = width := Option.some.inj hwidth
    decide +kernel
  have htexts : ∀ row ∈ (mixed 2).rows,
      (metadata? (Json.obj row.metadata).text).toOption.map (fun m => (Json.obj m).text) =
        some (Json.obj row.metadata).text := by decide +kernel
  have hreads : ∀ row ∈ (mixed 2).rows, Sheet.Reads row := fun row hrow =>
    Sheet.reads_of_text (htexts row hrow)
  obtain ⟨d', hwrite, hread, -⟩ := (tables_survive_files hname).1 hfits hreads
  exact ⟨hname, hfits, hreads, d', hwrite, hread,
    (tables_survive_files hname).2 3 rfl (by decide +kernel)⟩

end Directory

end Columnar

end VectorBridge
