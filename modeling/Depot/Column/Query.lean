import Depot.Column.Call
import Depot.Column.Statement
import Depot.Credential.Header
import Depot.Registry.Storage

/-!
# Calls as statements

Each call of a column store is one statement on a cluster, and its answer is read from the rows that
come back. Rows of objects and users are made by conditional statements, so every later write to
them is conditional too.

Headlines
* `Call.query` gives each call as a program, and `connect` prepares a cluster for them.
-/

namespace Depot.Column

open Credential (Login)
open Registry (Error)

/-- Which keyspace of which cluster, and who asks. -/
structure Config where
  /-- The contact points. -/
  hosts : List String := ["127.0.0.1:9042"]
  /-- The first part of the keyspace's name. -/
  keyspace : String := "lfs"
  /-- The second part of the keyspace's name. -/
  environment : String := "production"
  /-- The user. -/
  username : Option String := none
  /-- The password. -/
  password : Option String := none
  /-- How many copies of each row there are. -/
  replicas : Nat := 1
deriving DecidableEq, Repr

namespace Config

/-- The longest name of a keyspace. -/
def longestName : Nat := 48

/-- The name of the keyspace: ASCII letters, digits and underscores, and not too long. -/
def keyspaceName (c : Config) : Except Error String :=
  let name := c.keyspace ++ "_" ++ c.environment
  if name.utf8ByteSize ≤ longestName ∧ name.toList.all fun ch => ch.isAlphanum || ch == '_' then
    .ok name
  else .error (.invalidRequest (.keyspace name))

/-- The credentials, if they are complete. -/
def login? (c : Config) : Option Login := do return ⟨← c.username, ← c.password⟩

end Config

/-- What a client asks of a cluster. -/
inductive Ask where
  /-- To be connected at one of these addresses, with these credentials if they are wanted. -/
  | greet (hosts : List String) (login : Option Login)
  /-- To execute a statement and give the first page of what it answers. -/
  | first (s : Statement)
  /-- To execute a statement and give all pages of what it answers. -/
  | all (s : Statement)
deriving DecidableEq, Repr

/-- What a cluster replies. -/
@[reducible] def Ask.Reply : Ask → Type
  | .greet _ _ => Except Error Unit
  | .first _ => Except Error Result
  | .all _ => Except Error Result

/-- A computation over what is asked of a cluster. -/
abbrev Query (α : Type) := Registry.Action Ask Ask.Reply α

/-- The error for an answer of another form than expected. -/
def unexpected : Error := .backend (.reported "unexpected answer")

/-- Executes a statement. -/
def execute (s : Statement) : Query Result := ExceptT.mk (Program.perform (Ask.first s))

/-- Executes a statement and reads all pages. -/
def executeAll (s : Statement) : Query Result := ExceptT.mk (Program.perform (Ask.all s))

/-- The rows of an answer. -/
def rowsOf : Result → Except Error (List Cells)
  | .rows rows => .ok rows
  | _ => .error unexpected

/-- The rows of an answer, none if there is nothing in it. -/
def anyRows : Result → List Cells
  | .rows rows => rows
  | _ => []

/-- A text, which has to be there. -/
def textCell : Option Datum → Except Error String
  | some (.text s) => .ok s
  | _ => .error unexpected

/-- A number, which has to be there. -/
def intCell : Option Datum → Except Error Int
  | some (.int n) => .ok n
  | _ => .error unexpected

/-- A value that may be missing. -/
def optionalCell {α : Type} (read : Option Datum → Except Error α) :
    Option Datum → Except Error (Option α)
  | none => .ok none
  | cell => (read cell).map some

/-- A truth value, which has to be there. -/
def flagCell : Option Datum → Except Error Bool
  | some (.flag b) => .ok b
  | _ => .error unexpected

/-- A set, which has to be there. -/
def setCell : Option Datum → Except Error (List String)
  | some (.set members) => .ok members
  | _ => .error unexpected

/-- Reads a row of the table of object ids. A row without a flag is not pending. -/
def oidRowOf : Cells → Except Error OidRow
  | [oid, size, pending] => do
    return ⟨← textCell oid, ← intCell size, (← optionalCell flagCell pending).getD false⟩
  | _ => .error unexpected

/-- Reads a row of the table of projects. A set without members is missing. -/
def projectRowOf : Cells → Except Error ProjectRow
  | [name, oids, pending] => do
    return ⟨← textCell name, (← optionalCell setCell oids).getD [],
      (← optionalCell setCell pending).getD []⟩
  | _ => .error unexpected

/-- Reads a row of one name. -/
def nameOf : Cells → Except Error String
  | [name] => textCell name
  | _ => .error unexpected

/-- Reads a row of one password hash, which may be missing. -/
def hashOf : Cells → Except Error (Option String)
  | [hash] => optionalCell textCell hash
  | _ => .error unexpected

/-- Reads the first row, if there is one. -/
def firstOf {α : Type} (read : Cells → Except Error α) : List Cells → Except Error (Option α)
  | [] => .ok none
  | row :: _ => (read row).map some

/-- Whether a conditional statement took effect, by the first column of the first row; anything but
a truth value there counts as no. -/
def appliedOf : List Cells → Except Error Bool
  | (some (.flag b) :: _) :: _ => .ok b
  | _ :: _ => .ok false
  | [] => .error unexpected

/-- Executes a conditional statement and tells whether it took effect. -/
def executeIf (s : Statement) : Query Bool := do appliedOf (← rowsOf (← execute s))

/-- The column of one of a project's two sets. -/
def Membership.column : Membership → String
  | .pending => "pending"
  | .committed => "oids"

/-- A call as a program over statements. Closing asks nothing of the cluster. -/
def Call.query : (c : Call) → Query c.Answer
  | .findOid oid => do
    let found ← execute (.select ["oid", "size", "pending"] .oids (.key oid))
    firstOf oidRowOf (← rowsOf found)
  | .insertPendingOid oid size =>
    executeIf <| .insert .oids oid
      [("size", .bound (.int size)), ("pending", .literal true)] true
  | .markOidCommitted oid => do
    discard <| executeIf (.update .oids "pending" (.assign (.literal false)) oid true)
  | .allOids => do
    let found ← executeAll (.select ["oid", "size", "pending"] .oids .all)
    (anyRows found).mapM fun row => ExceptT.mk (pure (oidRowOf row))
  | .ensureProject name => do discard <| execute (.insert .projects name [] false)
  | .addProjectOid name oid m => do
    discard <| execute (.update .projects m.column (.add oid) name false)
  | .removePendingProjectOid name oid => do
    discard <| execute (.update .projects "pending" (.remove oid) name false)
  | .projectsWithOid oid m => do
    let found ← execute (.select ["name"] .projects (.contains m.column oid))
    (← rowsOf found).mapM fun row => ExceptT.mk (pure (nameOf row))
  | .allProjects => do
    let found ← executeAll (.select ["name", "oids", "pending"] .projects .all)
    (anyRows found).mapM fun row => ExceptT.mk (pure (projectRowOf row))
  | .findUser name => do
    let found ← execute (.select ["password"] .users (.key name))
    return (← firstOf hashOf (← rowsOf found)).join
  | .insertUserIfAbsent name hash =>
    executeIf (.insert .users name [("password", .bound (.text hash))] true)
  | .deleteUser name => do discard <| executeIf (.delete .users name)
  | .allUsers => do
    let found ← executeAll (.select ["username"] .users .all)
    (anyRows found).mapM fun row => ExceptT.mk (pure (nameOf row))
  | .close => return ()

/-- The statements that make tables and indexes. -/
def schema : List Statement :=
  [.createTable .projects, .createIndex .projects "oids", .createIndex .projects "pending",
    .createTable .oids, .createTable .users]

/-- Executes statements whose answers do not matter. -/
def executeEach : List Statement → Query Unit
  | [] => return ()
  | s :: rest => do
    discard <| execute s
    executeEach rest

/-- Connects to a cluster, and makes the keyspace and the tables unless they are there. -/
def connect (c : Config) : Query Unit := do
  let name ← c.keyspaceName
  ExceptT.mk (Program.perform (Ask.greet c.hosts c.login?))
  discard <| execute (.createKeyspace name c.replicas)
  match ← execute (.use name) with
  | .entered => executeEach schema
  | _ => throw unexpected

end Depot.Column
