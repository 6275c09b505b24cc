import Depot.Registry.Storage
import Depot.Relational.Tables

/-!
# Relational storage

The steps of a registry as transactions and queries. Registering and committing are one
transaction each; the listings are two queries each, between which others may write.
-/

namespace Depot.Relational

open Registry (Error Object Project Storage sortNames)

/-- A transaction or a query. -/
inductive Call where
  /-- Read a password hash. -/
  | passwordHash (user : String)
  /-- Read an object. -/
  | findObject (oid : String)
  /-- Insert a pending object unless there is a row, and read it. -/
  | register (o : Object)
  /-- Commit an object, and read it. -/
  | commit (oid : String)
  /-- Add a user unless there is one of that name. -/
  | insertUser (name hash : String)
  /-- Delete a user. -/
  | deleteUser (name : String)
  /-- List the users. -/
  | userNames
  /-- Add a project unless there is one of that name. -/
  | insertProject (name : String)
  /-- List the names of projects. -/
  | projectNames
  /-- List the committed objects. -/
  | committedObjects
  /-- List which committed objects belong to which projects. -/
  | committedMembership
  /-- Close the connections. -/
  | close
deriving DecidableEq, Repr

/-- What a successful transaction answers. -/
@[reducible] def Call.Answer : Call → Type
  | .passwordHash _ => Option String
  | .findObject _ => Option Object
  | .register _ => Option Object
  | .commit _ => Option Object
  | .insertUser _ _ => Unit
  | .deleteUser _ => Unit
  | .userNames => List String
  | .insertProject _ => Unit
  | .projectNames => List String
  | .committedObjects => List (String × Int)
  | .committedMembership => List (String × String)
  | .close => Unit

/-- What a transaction replies: its answer, or why it failed. -/
@[reducible] def Call.Reply (c : Call) : Type := Except Error c.Answer

/-- What a transaction answers, and the tables after it. -/
def Tables.transact (t : Tables) : (c : Call) → c.Answer × Tables
  | .passwordHash user => (t.users.get? user, t)
  | .findObject oid => (t.findObject oid, t)
  | .register o =>
    let t := t.register o
    (t.findObject o.oid, t)
  | .commit oid =>
    let t := t.clearPending oid
    (t.findObject oid, t)
  | .insertUser name hash => ((), t.insertUser name hash)
  | .deleteUser name => ((), t.deleteUser name)
  | .userNames => (t.users.keys, t)
  | .insertProject name => ((), t.insertProject name)
  | .projectNames => (t.projects.keys, t)
  | .committedObjects => (t.committedObjects, t)
  | .committedMembership => (t.committedMembership, t)
  | .close => ((), t)

/-- A database with connections that may be closed. -/
structure Database where
  /-- The tables. -/
  tables : Tables := {}
  /-- Whether the connections are closed. -/
  closed : Bool := false
  /-- Whether the tables outlast the connections. -/
  lasting : Bool := true
deriving DecidableEq

/-- What a transaction replies, and the database after it. Over closed connections every one but
another closing fails. -/
def Database.step (d : Database) (c : Call) : c.Reply × Database :=
  match c with
  | .close => (.ok (), { d with closed := true })
  | c =>
    if d.closed then (.error (.backend .poolClosed), d)
    else
      let (a, t) := d.tables.transact c
      (.ok a, { d with tables := t })

/-- Opens connections again. Tables that do not outlast connections are empty then. -/
def Database.reopen (d : Database) : Database :=
  { d with tables := if d.lasting then d.tables else {}, closed := false }

/-- A computation over transactions that may fail. -/
abbrev Action (α : Type) := Registry.Action Call Call.Reply α

/-- A transaction, whose failure ends the computation. -/
def transaction (c : Call) : Action c.Answer := ExceptT.mk (Program.perform c)

/-- Lists an object under a project, if there is one of that name. -/
def enlist (projects : Table String Project) (row : String × String) : Table String Project :=
  projects.modify row.1 fun p => p.insert row.2

/-- The projects of the given names, with the objects that the rows list under them. -/
def assembleProjects (names : List String) (rows : List (String × String)) : List Project :=
  let empty := Table.ofList (names.map fun name => (name, Project.empty name))
  (rows.foldl enlist empty).values

/-- The projects in ascending order with their committed objects. -/
def projects : Action (List Project) := do
  let names ← transaction .projectNames
  return assembleProjects names (← transaction .committedMembership)

/-- The given committed objects, with the projects that the rows list for them. -/
def assembleObjects (objects : List (String × Int)) (rows : List (String × String)) :
    List Object :=
  objects.map fun (oid, size) =>
    ⟨oid, size, sortNames ((rows.filter fun row => row.2 == oid).map Prod.fst), true⟩

/-- The committed objects in ascending order. -/
def objects : Action (List Object) := do
  let found ← transaction .committedObjects
  return assembleObjects found (← transaction .committedMembership)

/-- The steps of a registry over a relational database. -/
def storage : Storage Call Call.Reply where
  passwordHash user := Program.perform (Call.passwordHash user)
  find oid := transaction (.findObject oid)
  register r := transaction (.register r.pendingObject)
  commit oid := transaction (.commit oid)
  insertUser name hash := transaction (.insertUser name hash)
  deleteUser name := transaction (.deleteUser name)
  userNames := transaction .userNames
  ensureProject name := transaction (.insertProject name)
  projects := projects
  objects := objects
  close := transaction .close

end Depot.Relational
