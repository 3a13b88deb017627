import VectorBridge.Filter.Clause
/-!
# Capabilities

Which operators a backend evaluates itself, on metadata and on the
document. What it cannot evaluate is left to the client.
-/

namespace VectorBridge

/-- What a backend evaluates itself. -/
structure Capabilities where
  onMetadata : Operator → Bool
  onDocument : Operator → Bool

namespace Capabilities

/-- The backend evaluates everything. -/
def allServerSide : Capabilities := ⟨fun _ => true, fun _ => true⟩

/-- The backend evaluates nothing. -/
def allResidual : Capabilities := ⟨fun _ => false, fun _ => false⟩

/-- Changes one operator on metadata. -/
def setMetadata (t : Capabilities) (o : Operator) (on : Bool) : Capabilities :=
  { t with onMetadata := fun p => if p = o then on else t.onMetadata p }

/-- Changes one operator on the document. -/
def setDocument (t : Capabilities) (o : Operator) (on : Bool) : Capabilities :=
  { t with onDocument := fun p => if p = o then on else t.onDocument p }

/-- Changes every operator on the document. -/
def setDocumentAll (t : Capabilities) (on : Bool) : Capabilities :=
  { t with onDocument := fun _ => on }

/-- Whether the backend evaluates the clause. -/
def isServerSide (t : Capabilities) (c : Clause) : Bool :=
  if c.onDocument then t.onDocument c.operator else t.onMetadata c.operator

/-- The operators the backend evaluates on metadata. -/
def serverSideOperators (t : Capabilities) : List Operator :=
  Operator.all.filter t.onMetadata

/-- The table's row of one operator. -/
def rowJson (t : Capabilities) (o : Operator) : Json :=
  .ofFields [("operator", o.toJson), ("symbol", .str o.symbol),
    ("server_side", .bool (t.onMetadata o)), ("document_server_side", .bool (t.onDocument o))]

/-- The table, one row per operator. -/
def toJson (t : Capabilities) : Json := .arr (Operator.all.map t.rowJson)

end Capabilities

end VectorBridge
