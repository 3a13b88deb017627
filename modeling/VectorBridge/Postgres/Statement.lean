import VectorBridge.Postgres.Server
/-!
# Statements about a table

The SQL that makes a table, reads it and changes it. The name of the table
stands in the text, as a delimited identifier. What a filter asks for and
where a page ends travel as parameters; ids, rows and vectors do as well,
bound beside those that are named here.
-/

namespace VectorBridge

namespace Postgres

/-- The columns of an item. -/
def itemColumns : String := "\"id\", \"document\", \"metadata\", \"embedding\""

/-- The name of the index on a table's vectors. -/
def indexName (table : String) : String := table ++ "_embedding_idx"

/-- A size as a parameter, which is signed and has 64 bits. -/
def SqlParam.ofSize (n : Nat) : SqlParam := .bigint (min n (Word.half64 - 1) : Nat)

/-- A statement about one table. -/
inductive Statement where
  | createTable (width : Nat)
  | createIndex (metric : Metric) (lists : Nat)
  | dropTable
  | upsert
  | fetch
  | select (filter : Option SqlWhere) (offset : Nat) (limit : Option Nat)
  | delete
  | deleteWhere (filter : SqlWhere)
  | count
  | nearest (metric : Metric) (filter : Option SqlWhere)
  deriving Inhabited

namespace Statement

/-- The clause of a filter, if there is one. -/
def whereClause : Option SqlWhere → Rendering String
  | none => pure ""
  | some w => do
    let condition ← w.render
    pure s!" WHERE {condition}"

/-- The clause of a limit, if there is one. -/
def limitClause : Option Nat → Rendering String
  | none => pure ""
  | some n => do
    let p ← bind (.ofSize n)
    pure s!" LIMIT {p}"

/-- The condition of a filter; one that is missing always holds. -/
def condition : Option SqlWhere → Rendering String
  | none => pure "TRUE"
  | some w => w.render

/-- The text of a statement, which appends the parameters of its filter and
of its page. -/
def render (table : String) : Statement → Rendering String
  | createTable width => pure <|
      s!"CREATE TABLE {quoteIdentifier table} (\"id\" TEXT PRIMARY KEY, \"document\" TEXT, " ++
        s!"\"metadata\" JSONB NOT NULL DEFAULT '\x7b\x7d'::jsonb, \"embedding\" vector({width}))"
  | createIndex metric lists => pure <|
      s!"CREATE INDEX {quoteIdentifier (indexName table)} ON {quoteIdentifier table} " ++
        s!"USING ivfflat (\"embedding\" {operatorClass metric}) WITH (lists = {max lists 1})"
  | dropTable => pure s!"DROP TABLE {quoteIdentifier table}"
  | upsert => pure <|
      s!"INSERT INTO {quoteIdentifier table} ({itemColumns}) VALUES ($1, $2, $3, $4) " ++
        "ON CONFLICT (\"id\") DO UPDATE SET \"document\" = EXCLUDED.\"document\", " ++
        "\"metadata\" = EXCLUDED.\"metadata\", \"embedding\" = EXCLUDED.\"embedding\""
  | fetch => pure
      s!"SELECT {itemColumns} FROM {quoteIdentifier table} WHERE \"id\" = ANY($1)"
  | select filter offset limit => do
      let matching ← whereClause filter
      let limited ← limitClause limit
      let start ← bind (.ofSize offset)
      pure <| s!"SELECT {itemColumns} FROM {quoteIdentifier table}{matching} " ++
        s!"ORDER BY \"id\"{limited} OFFSET {start}"
  | delete => pure s!"DELETE FROM {quoteIdentifier table} WHERE \"id\" = ANY($1)"
  | deleteWhere filter => do
      let matching ← filter.render
      pure s!"DELETE FROM {quoteIdentifier table} WHERE {matching}"
  | count => pure s!"SELECT COUNT(*) AS count FROM {quoteIdentifier table}"
  | nearest metric filter => do
      let matching ← condition filter
      let bound ← get
      -- the vector and the limit are bound behind the parameters of the filter
      let vector := bound.length + 1
      pure <| s!"SELECT {itemColumns}, (\"embedding\" {distanceOperator metric} ${vector})" ++
        s!"::double precision AS distance FROM {quoteIdentifier table} " ++
        s!"WHERE \"embedding\" IS NOT NULL AND {matching} " ++
        s!"ORDER BY distance ASC LIMIT ${vector + 1}"

/-- The text of a statement. -/
def text (s : Statement) (table : String) : String := (s.render table []).1

end Statement

end Postgres

end VectorBridge
