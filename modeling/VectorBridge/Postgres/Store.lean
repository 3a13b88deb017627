import VectorBridge.Family
import VectorBridge.Postgres.Server
/-!
# Items in a PostgreSQL database

An item is a row of its table under its own id, and may lack a vector.
-/

namespace VectorBridge

namespace Postgres

/-- The family of PostgreSQL databases. -/
def family : Family Memory String SqlCondition SqlWhere where
  kind := .postgres
  compiler := filterCompiler
  ping := pure ()
  names := Memory.names
  create := fun _ name width metric => Memory.create name width metric
  drop := Memory.drop
  count := Memory.count
  attach := fun name => pure name
  inspect := fun name => Memory.reading name fun t => (name, ⟨.distance, t.metric, some t.width⟩)
  nameOf := fun name => name
  metadataOf := fun _ => none
  readsMetadata := false
  declaredWidth := fun name => Memory.reading name fun t => some t.width
  probedWidth := fun name => Memory.reading name fun t =>
    ((t.passing none).take 1).findSome? fun item => item.embedding.map List.length
  trustsDeclared := false
  learnsWidth := true
  checkItem := fun _ => .ok ()
  vectorless := none
  write := fun name items => (Memory.upsert name items).toAction
  fetch := fun name ids => do pure (Batch.inOrderOf ids (← Memory.fetch name ids))
  sample := fun name n => Memory.reading name fun t => (t.passing none).take n
  fetchAll := fun name filter => (Memory.reading name fun t => t.passing filter).toAction
  readPage := fun name filter request => do
    let offset ← Action.ofResult request.offset
    let items ← (Memory.reading name fun t =>
      ((t.passing filter).drop offset).take request.size).toAction
    Action.ofResult (Page.ofOffset items request)
  eraseIds := Memory.erase
  eraseWhere := Memory.eraseWhere
  size := Memory.count
  nearest := fun name scoring limit filter vectors => Memory.reading name fun t =>
    vectors.map fun v => t.nearest scoring.metric v limit filter
  rounds := fun m => Keyed.total (fun t => t.rows.length) m.tables + 2

end Postgres

end VectorBridge
