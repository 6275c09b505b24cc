import Depot.Column.Call
import Depot.Registry.Storage

/-!
# Column storage

The steps of a registry as sequences of statements. Nothing spans two statements, so their order
carries the guarantees: a registration adds the object to its project before it inserts the row, and
a commit moves the object between a project's sets, adding before it removes, before it clears the
flag.
-/

namespace Depot.Column

open Registry (Error Object Project Request Storage sortNames)

/-- A computation over the statements that may fail. -/
abbrev Action (α : Type) := Registry.Action Call Call.Reply α

/-- A statement, whose failure ends the computation. -/
def statement (c : Call) : Action c.Answer := ExceptT.mk (Program.perform c)

/-- The set that holds an object: by the flag of its row. -/
def membershipOf (row : OidRow) : Membership := if row.pending then .pending else .committed

/-- The object of a row and the projects found for it. -/
def objectOf (row : OidRow) (projects : List String) : Object :=
  ⟨row.oid, row.size, sortNames projects, !row.pending⟩

/-- Reads the row of an object and then the projects that hold it in the set its flag names. -/
def findObject (oid : String) : Action (Option Object) := do
  match ← statement (.findOid oid) with
  | none => return none
  | some row => return some (objectOf row (← statement (.projectsWithOid oid (membershipOf row))))

/-- Adds an object to the pending sets of projects, which are made if need be. -/
def addPending (oid : String) : List String → Action Unit
  | [] => return ()
  | name :: rest => do
    statement (.ensureProject name)
    statement (.addProjectOid name oid .pending)
    addPending oid rest

/-- Registers an object that had no record: membership first, so that a commit that finds the row
finds the project too. Who loses the race for the row answers with the row that won. -/
def registerNew (r : Request) : Action (Option Object) := do
  addPending r.oid r.projects
  if ← statement (.insertPendingOid r.oid r.size) then return some r.pendingObject
  else findObject r.oid

/-- Registers an object unless there is a record. -/
def register (r : Request) : Action (Option Object) := do
  match ← findObject r.oid with
  | some o => return some o
  | none => registerNew r

/-- Moves an object from the pending to the committed sets of projects. -/
def promote (oid : String) : List String → Action Unit
  | [] => return ()
  | name :: rest => do
    statement (.addProjectOid name oid .committed)
    statement (.removePendingProjectOid name oid)
    promote oid rest

/-- Commits an object if there is a record. -/
def commit (oid : String) : Action (Option Object) := do
  match ← findObject oid with
  | none => return none
  | some _ =>
    promote oid (← statement (.projectsWithOid oid .pending))
    statement (.markOidCommitted oid)
    findObject oid

/-- The project of a row, its objects in ascending order. -/
def projectOf (row : ProjectRow) : Project := ⟨row.name, sortNames row.oids⟩

/-- The projects in ascending order with their committed objects. -/
def projects : Action (List Project) := do
  let rows ← statement .allProjects
  return (rows.mergeSort fun a b => (compare a.name b.name).isLE).map projectOf

/-- The projects that hold an object in their committed sets, once for each time that a row
lists it. -/
def holders (rows : List ProjectRow) (oid : String) : List String :=
  rows.flatMap fun row => (row.oids.filter (· == oid)).map fun _ => row.name

/-- The objects of committed rows with their projects. Of several rows for one object id the first
one takes the projects. -/
def assemble (rows : List ProjectRow) (seen : List String) : List OidRow → List Object
  | [] => []
  | row :: rest =>
    let names := if seen.contains row.oid then [] else holders rows row.oid
    ⟨row.oid, row.size, sortNames names, true⟩ :: assemble rows (row.oid :: seen) rest

/-- The committed objects in ascending order. -/
def objects : Action (List Object) := do
  let rows ← statement .allProjects
  let oids ← statement .allOids
  let found := assemble rows [] (oids.filter fun row => !row.pending)
  return found.mergeSort fun a b => (compare a.oid b.oid).isLE

/-- The steps of a registry over a column store. -/
def storage : Storage Call Call.Reply where
  passwordHash user := Program.perform (Call.findUser user)
  find := findObject
  register := register
  commit := commit
  insertUser name hash := do discard <| statement (.insertUserIfAbsent name hash)
  deleteUser name := statement (.deleteUser name)
  userNames := return sortNames (← statement .allUsers)
  ensureProject name := statement (.ensureProject name)
  projects := projects
  objects := objects
  close := statement .close

end Depot.Column
