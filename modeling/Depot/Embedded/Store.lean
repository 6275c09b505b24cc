import Depot.Embedded.Tables
import Depot.Registry.Storage

/-!
# Embedded storage

The steps of a registry as transactions on the embedded tables. Registering and committing are
one transaction each, so that of several registrations of one object the first one counts.
-/

namespace Depot.Embedded

open Registry (Error Object Project Storage)

/-- A transaction. -/
inductive Call where
  /-- Read a password hash. -/
  | passwordHash (user : String)
  /-- Read an object. -/
  | findObject (oid : String)
  /-- Store a pending object unless there is a record. -/
  | register (o : Object)
  /-- Commit an object, if there is a record. -/
  | commit (oid : String)
  /-- Add a user unless there is one of that name. -/
  | insertUser (name hash : String)
  /-- Delete a user. -/
  | deleteUser (name : String)
  /-- List the users. -/
  | userNames
  /-- Add a project unless there is one of that name. -/
  | insertProject (name : String)
  /-- List the projects. -/
  | allProjects
  /-- List the objects. -/
  | allObjects
  /-- Give up the database. -/
  | close
deriving DecidableEq, Repr

/-- What a successful transaction answers. -/
@[reducible] def Call.Answer : Call → Type
  | .passwordHash _ => Option String
  | .findObject _ => Option Object
  | .register _ => Object
  | .commit _ => Option Object
  | .insertUser _ _ => Unit
  | .deleteUser _ => Unit
  | .userNames => List String
  | .insertProject _ => Unit
  | .allProjects => List Project
  | .allObjects => List Object
  | .close => Unit

/-- What a transaction replies: its answer, or why it failed. -/
@[reducible] def Call.Reply (c : Call) : Type := Except Error c.Answer

/-- A database that may be open. -/
structure Database where
  /-- The tables in the file. -/
  tables : Tables := {}
  /-- Whether it is closed. -/
  closed : Bool := false
deriving DecidableEq

/-- The outcome of a transaction on open tables: the answer and the tables after it. -/
def Tables.transact (t : Tables) : (c : Call) → Except Error (c.Answer × Tables)
  | .passwordHash user => .ok (t.users.get? user, t)
  | .findObject oid => (t.findObject oid).map fun o => (o, t)
  | .register o => t.register o
  | .commit oid => t.commit oid
  | .insertUser name hash => .ok ((), t.insertUser name hash)
  | .deleteUser name => .ok ((), t.deleteUser name)
  | .userNames => .ok (t.users.keys, t)
  | .insertProject name => .ok ((), t.ensureProject name)
  | .allProjects => t.allProjects.map fun ps => (ps, t)
  | .allObjects => t.allObjects.map fun os => (os, t)
  | .close => .ok ((), t)

/-- What a transaction replies and the database after it. One that fails leaves the tables as they
were, and on a closed database every one but another closing fails. -/
def Database.step (d : Database) (c : Call) : c.Reply × Database :=
  match c with
  | .close => (.ok (), { d with closed := true })
  | c =>
    if d.closed then (.error .closed, d)
    else
      match d.tables.transact c with
      | .ok (a, t) => (.ok a, { d with tables := t })
      | .error e => (.error e, d)

/-- Opens the database again. -/
def Database.reopen (d : Database) : Database := { d with closed := false }

/-- A computation over transactions that may fail. -/
abbrev Action (α : Type) := Registry.Action Call Call.Reply α

/-- A transaction, whose failure ends the computation. -/
def transaction (c : Call) : Action c.Answer := ExceptT.mk (Program.perform c)

/-- The steps of a registry over an embedded database. -/
def storage : Storage Call Call.Reply where
  passwordHash user := Program.perform (Call.passwordHash user)
  find oid := transaction (.findObject oid)
  register r := return some (← transaction (.register r.pendingObject))
  commit oid := transaction (.commit oid)
  insertUser name hash := transaction (.insertUser name hash)
  deleteUser name := transaction (.deleteUser name)
  userNames := transaction .userNames
  ensureProject name := transaction (.insertProject name)
  projects := transaction .allProjects
  objects := return (← transaction .allObjects).filter Object.existing
  close := transaction .close

end Depot.Embedded
