import EndpointHealth.Catalog
import EndpointHealth.Notice
set_option autoImplicit false

/-!
The registry of endpoints: a table of rows in the order of registration, with the default endpoint
marked by a flag on its row. A row names its provider by a text, which is looked at only when the
row is read.

Main statement: an endpoint read from a row made of it is that endpoint, and the default if the row
has the flag (`endpoint_ofEndpoint`).
-/

namespace EndpointHealth

structure Row where
  id : EndpointId
  name : String
  provider : String
  model : String
  apiBase : Option String
  apiKey : String
  /-- One marks the default; any other number but zero only reads as if it did. -/
  flag : Int
  deriving DecidableEq, Repr

inductive RegistryTask where
  | insert | load | loadDefault | count | list | readRow | update | delete | find
  deriving DecidableEq, Repr

def RegistryTask.message : RegistryTask → String
  | insert => "failed to insert model"
  | load => "failed to load model"
  | loadDefault => "failed to load default model"
  | count => "failed to count models"
  | list => "failed to prepare list query"
  | readRow => "failed to read model row"
  | update => "failed to update model"
  | delete => "failed to delete model"
  | find => "failed to look up model"

inductive RegistryCause where
  | takenId
  | noTable
  | unknownProvider (name : String)
  deriving DecidableEq, Repr

def RegistryCause.message : RegistryCause → String
  | takenId =>
    "UNIQUE constraint failed: models.model_id: Error code 1555: A PRIMARY KEY constraint failed"
  | noTable => "no such table: models: Error code 1: SQL error or missing database"
  | unknownProvider name =>
    let why := (Provider.unknownName name).message
    "Conversion error from type Text at index: 2, " ++ why ++ ": " ++ why

structure RegistryFault where
  task : RegistryTask
  cause : RegistryCause
  deriving DecidableEq, Repr

def RegistryFault.message (f : RegistryFault) : String := f.task.message ++ ": " ++ f.cause.message

namespace Row

def ofEndpoint (e : Endpoint) : Row where
  id := e.id
  name := e.name
  provider := e.provider.name
  model := e.model
  apiBase := e.apiBase
  apiKey := e.apiKey
  flag := 0

def endpoint (r : Row) : Except RegistryCause Endpoint :=
  match Provider.ofName? r.provider with
  | none => .error (.unknownProvider r.provider)
  | some p =>
    .ok { id := r.id, name := r.name, provider := p, model := r.model, apiBase := r.apiBase
          apiKey := r.apiKey, isDefault := r.flag ≠ 0 }

theorem endpoint_ofEndpoint (e : Endpoint) (flag : Int) :
    { ofEndpoint e with flag }.endpoint = .ok { e with isDefault := flag ≠ 0 } := by
  simp [endpoint, ofEndpoint, Provider.ofName_name]

end Row

/-- The rows; none once the table has been dropped. -/
structure Registry where
  rows? : Option (List Row)
  deriving DecidableEq, Repr

namespace Registry

def empty : Registry := ⟨some []⟩

def withTable (r : Registry) : Registry := ⟨some (r.rows?.getD [])⟩

def rowsFor (r : Registry) (task : RegistryTask) : Except RegistryFault (List Row) :=
  match r.rows? with
  | none => .error ⟨task, .noTable⟩
  | some rows => .ok rows

def readFor (task : RegistryTask) (row : Row) : Except RegistryFault Endpoint :=
  match row.endpoint with
  | .error c => .error ⟨task, c⟩
  | .ok e => .ok e

def list (r : Registry) : Except RegistryFault (List Endpoint) := do
  (← r.rowsFor .list).mapM (readFor .readRow)

def get (r : Registry) (id : EndpointId) : Except RegistryFault (Option Endpoint) := do
  match (← r.rowsFor .load).find? (·.id = id) with
  | none => .ok none
  | some row => (readFor .load row).map some

def getDefault (r : Registry) : Except RegistryFault (Option Endpoint) := do
  match (← r.rowsFor .loadDefault).find? (·.flag = 1) with
  | none => .ok none
  | some row => (readFor .loadDefault row).map some

def count (r : Registry) : Except RegistryFault Nat := do
  .ok (← r.rowsFor .count).length

def addRow (r : Registry) (row : Row) : Except RegistryCause Registry :=
  match r.rows? with
  | none => .error .noTable
  | some rows =>
    if rows.any (·.id = row.id) then .error .takenId else .ok ⟨some (rows ++ [row])⟩

/-- Adds an endpoint, which is not the default. -/
def insert (r : Registry) (e : Endpoint) : Except RegistryFault Registry :=
  match r.addRow (Row.ofEndpoint e) with
  | .error c => .error ⟨.insert, c⟩
  | .ok r => .ok r

def editedRow (e : Endpoint) (row : Row) : Row :=
  { row with name := e.name, model := e.model, apiBase := e.apiBase, apiKey := e.apiKey }

def update (r : Registry) (e : Endpoint) : Except RegistryFault Registry := do
  let rows ← r.rowsFor .update
  .ok ⟨some (rows.map fun row => if row.id = e.id then editedRow e row else row)⟩

def delete (r : Registry) (id : EndpointId) : Except RegistryFault (Bool × Registry) := do
  let rows ← r.rowsFor .delete
  .ok (rows.any (·.id = id), ⟨some (rows.filter (·.id ≠ id))⟩)

def setDefault (r : Registry) (id : EndpointId) : Except RegistryFault (Bool × Registry) := do
  let rows ← r.rowsFor .find
  if rows.any (·.id = id) then
    .ok (true, ⟨some (rows.map fun row => { row with flag := if row.id = id then 1 else 0 })⟩)
  else .ok (false, r)

structure Seeding where
  registry : Registry
  count : Nat
  notices : List Notice

def seedNotice (e : Endpoint) : Notice :=
  match e.refusal? with
  | some why => .seedSkipped e.id why
  | none => .registered e.name e.id

def setDefault? (r : Registry) : Option Endpoint → Except RegistryFault (Registry × List Notice)
  | none => .ok (r, [])
  | some e => do
    let (found, r) ← r.setDefault e.id
    .ok (r, if found then [.madeDefault e.id] else [])

/-- Fills an empty registry with the endpoints of a catalog that break no rule. The first of them
that is flagged becomes the default, or else the first. -/
def seed (r : Registry) (c : Catalog) : Except RegistryFault Seeding := do
  let n ← r.count
  if 0 < n then .ok ⟨r, 0, [.seedingSkipped n]⟩
  else
    let accepted := c.endpoints.filter (·.refusal?.isNone)
    let r ← accepted.foldlM insert r
    let (r, notices) ← r.setDefault? ((accepted.find? (·.isDefault)).or accepted.head?)
    .ok ⟨r, accepted.length,
      c.endpoints.map seedNotice ++ notices ++ [.seeded accepted.length]⟩

end Registry
end EndpointHealth
