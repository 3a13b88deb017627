import VectorBridge.Collection
import VectorBridge.Columnar.Table
import VectorBridge.Json.Printer
import VectorBridge.Json.Reader
/-!
# Tables in files

A directory of table files. A file holds named columns with an entry for
each row, metadata as JSON text among them, and the metric by name in its
notes. It is read in batches of rows, and each batch column by column; a file
that holds something else cannot be read as a table. A new file takes the
old one's place only when it is complete.
-/

namespace VectorBridge

namespace Columnar

/-! ## Columns -/

/-- A column: an entry for each row, where null is none. Lists are of one
width where the column declares it. -/
inductive Column where
  | texts (values : List (Option String))
  | flags (values : List (Option Bool))
  /-- Lists of binary32 numbers. -/
  | vectors (width : Option Nat) (values : List Embedding)
  /-- Lists of anything else. -/
  | lists (width : Option Nat)
  | other
  deriving Inhabited

namespace Column

/-- The entries of some rows, one after the other. -/
def slice (start count : Nat) : Column → Column
  | texts values => texts ((values.drop start).take count)
  | flags values => flags ((values.drop start).take count)
  | vectors width values => vectors width ((values.drop start).take count)
  | lists width => lists width
  | other => other

/-- The width the column declares. -/
def width? : Column → Option Nat
  | vectors width _ | lists width => width
  | texts _ | flags _ | other => none

/-- The vector of a row. -/
def vectorAt (i : Nat) : Column → Except TransportError Embedding
  | vectors _ values => .ok (values[i]?.getD [])
  | lists _ => .error (.malformed "vector values are not float32")
  | texts _ | flags _ | other => .error (.malformed "vector column is not a float list")

end Column

/-! ## Batches of rows -/

/-- Some rows of a file, column by column. -/
structure RowBatch where
  columns : List (String × Column)
  count : Nat
  deriving Inhabited

/-- The metadata of its text. -/
def metadata? (text : String) : Except TransportError Metadata :=
  match (Json.parse? text).bind Json.fields? with
  | some m => .ok m
  | none => .error .undecodable

namespace RowBatch

/-- A column of texts. -/
def texts (b : RowBatch) (name : String) : Except TransportError (List (Option String)) :=
  match Keyed.get? name b.columns with
  | some (.texts values) => .ok values
  | _ => .error (.malformed s!"missing string column '{name}'")

/-- The column of vectors, whatever is in it. -/
def vectors (b : RowBatch) : Except TransportError Column :=
  match Keyed.get? "vector" b.columns with
  | some column => .ok column
  | none => .error (.malformed "missing column 'vector'")

/-- The column of flags; older files have none. -/
def flags? (b : RowBatch) : Option (List (Option Bool)) :=
  match Keyed.get? "has_vector" b.columns with
  | some (.flags values) => some values
  | _ => none

/-- Whether the vector of a row is the item's own. Without flags it is in every
row but the sentinel. -/
def isOwn (flags : Option (List (Option Bool))) (id : String) (i : Nat) : Bool :=
  match flags with
  | some values => (values[i]?.join).getD false
  | none => id ≠ sentinelId

/-- A row out of its columns; null reads as the empty text where a text is
needed. -/
def row (ids documents metadata : List (Option String)) (vectors : Column)
    (flags : Option (List (Option Bool))) (i : Nat) : Except TransportError Row := do
  let id := (ids[i]?.join).getD ""
  let metadata ← metadata? ((metadata[i]?.join).getD "")
  let vector ← vectors.vectorAt i
  pure { id, document := documents[i]?.join, metadata, vector, hasVector := isOwn flags id i }

/-- The rows; the first failure wins. -/
def rows (b : RowBatch) : Except TransportError (List Row) := do
  let ids ← b.texts "id"
  let documents ← b.texts "document"
  let metadata ← b.texts "metadata"
  let vectors ← b.vectors
  (List.range b.count).mapM (row ids documents metadata vectors b.flags?)

end RowBatch

/-! ## Sheets -/

/-- What is in a table file. -/
structure Sheet where
  notes : Keyed String String
  columns : List (String × Column)
  count : Nat
  deriving Inhabited

namespace Sheet

/-- The note that names the metric. -/
def metricNote : String := "veclens.metric"

/-- No batch has more rows. -/
def batchSize : Nat := 1024

/-- The greatest width a column can declare. -/
def maxWidth : Nat := Word.half32 - 1

/-- The batch of the rows from one on. -/
def batchFrom (s : Sheet) (start : Nat) : RowBatch where
  columns := s.columns.map fun (name, column) => (name, column.slice start batchSize)
  count := min batchSize (s.count - start)

/-- The batches in which the rows are read. -/
def batches (s : Sheet) : List RowBatch :=
  (List.range ((s.count + batchSize - 1) / batchSize)).map fun k => s.batchFrom (k * batchSize)

/-- The table in a sheet. A metric that is not noted, or not known, is none. -/
def toTable (s : Sheet) : Except TransportError Table := do
  let rows ← s.batches.mapM RowBatch.rows
  pure { width := (Keyed.get? "vector" s.columns).bind Column.width?
         metric := ((Keyed.get? metricNote s.notes).map Metric.parseLossy).getD .unknown
         rows := rows.flatten }

/-- The column of a table's vectors, which declares the width that the table
does. A row of another width is refused, and so is a width too great to declare. -/
def vectorColumn (t : Table) : Except TransportError Column :=
  match t.width with
  | none => .ok (.vectors none (t.rows.map (·.vector)))
  | some width =>
    match t.rows.find? fun r => r.vector.length ≠ width with
    | some r => .error <| .malformed
      s!"row '{r.id}' has {r.vector.length} values in a column of width {width}"
    | none =>
      if maxWidth < width then .error (.malformed "vector width overflows the schema")
      else .ok (.vectors (some width) (t.rows.map (·.vector)))

/-- The sheet of a table. -/
def ofTable (t : Table) : Except TransportError Sheet := do
  let vectors ← vectorColumn t
  pure { notes := [(metricNote, t.metric.name)]
         columns := [
           ("id", .texts (t.rows.map fun r => some r.id)),
           ("document", .texts (t.rows.map (·.document))),
           ("metadata", .texts (t.rows.map fun r => some (Json.obj r.metadata).text)),
           ("vector", vectors),
           ("has_vector", .flags (t.rows.map fun r => some r.hasVector))]
         count := t.rows.length }

end Sheet

/-! ## Files -/

/-- What a file holds. -/
inductive File where
  | table (sheet : Sheet)
  | other
  deriving Inhabited

/-- A directory of files, by name. -/
structure Directory where
  files : Keyed String File
  deriving Inhabited

/-- The ending of a table file's name. -/
def ending : String := ".parquet"

/-- Whether a name can be a table's: letters, digits, underscores, dots and
hyphens, beginning with neither of the last two. -/
def isTableName (name : String) : Bool :=
  let plain (c : Char) : Bool := Text.isLetter c || Text.isDigit c || c == '_'
  match name.toList with
  | [] => false
  | c :: cs => plain c && cs.all fun c => plain c || c == '.' || c == '-'

/-- The greatest length of a file's name. -/
def maxFileName : Nat := 255

namespace Directory

/-- A directory without files. -/
def empty : Directory := ⟨[]⟩

/-- The file of a table. -/
def fileName (name : String) : Except TransportError String :=
  if isTableName name then .ok (name ++ ending)
  else .error (.malformed s!"'{name}' is not a valid table name")

/-- The table of a file's name, when it has the ending of one. -/
def tableName? (file : String) : Option String :=
  if Text.endsWith file ending && file.length > ending.length then
    some (String.ofList (file.toList.take (file.length - ending.length)))
  else none

/-- The names of the tables, in order. -/
def tables (d : Directory) : List String := sortedSet ((Keyed.keys d.files).filterMap tableName?)

/-- The table of a name. -/
def read (d : Directory) (name : String) : Except TransportError Table :=
  match fileName name with
  | .error e => .error e
  | .ok file =>
    match Keyed.get? file d.files with
    | none => .error (.missing s!"table '{name}'")
    | some .other => .error .file
    | some (.table sheet) => sheet.toTable

/-- Writes a table under a name. -/
def write (d : Directory) (name : String) (t : Table) : Except TransportError Directory :=
  match fileName name, Sheet.ofTable t with
  | .error e, _ => .error e
  | .ok _, .error e => .error e
  | .ok file, .ok sheet =>
    if maxFileName < file.length then .error .io
    else .ok ⟨Keyed.insert file (.table sheet) d.files⟩

/-- Removes the table of a name. -/
def drop (d : Directory) (name : String) : Except TransportError Directory :=
  match fileName name with
  | .error e => .error e
  | .ok file =>
    if Keyed.hasKey file d.files then .ok ⟨Keyed.erase file d.files⟩
    else .error (.missing s!"table '{name}'")

/-- Changes a directory, or leaves it as it is. -/
def changing (f : Directory → Except TransportError Directory) : Call Directory Unit := fun d =>
  match f d with
  | .ok d => (.ok (), d)
  | .error e => (.error e, d)

instance : Store Directory where
  tables := Call.read fun d => .ok d.tables
  contains := fun name => Call.read fun d => (fileName name).map fun f => Keyed.hasKey f d.files
  read := fun name => Call.read fun d => d.read name
  write := fun name t => changing fun d => d.write name t
  drop := fun name => changing fun d => d.drop name

end Directory

end Columnar

end VectorBridge
