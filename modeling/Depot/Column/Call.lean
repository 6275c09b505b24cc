import Depot.Program
import Depot.Registry.Error

/-!
# Calls on a column store

The statements that the column registry is written in: a table of object ids with a pending flag, a
table of projects with two sets of object ids each, and a table of users. Each statement is atomic;
nothing spans two of them.
-/

namespace Depot.Column

open Registry (Error)

/-- A row of the table of object ids. -/
structure OidRow where
  /-- The object id. -/
  oid : String
  /-- The size of the object. -/
  size : Int
  /-- Whether the object is still pending. -/
  pending : Bool
deriving DecidableEq, Repr

/-- A row of the table of projects. -/
structure ProjectRow where
  /-- The name. -/
  name : String
  /-- The ids of its committed objects. -/
  oids : List String
  /-- The ids of its pending objects. -/
  pending : List String
deriving DecidableEq, Repr

/-- Which of a project's two sets is meant. -/
inductive Membership where
  /-- The pending objects. -/
  | pending
  /-- The committed objects. -/
  | committed
deriving DecidableEq, Repr

/-- A statement on the tables. -/
inductive Call where
  /-- Read a row of the table of object ids. -/
  | findOid (oid : String)
  /-- Insert a pending row unless there is a row. -/
  | insertPendingOid (oid : String) (size : Int)
  /-- Clear the pending flag of a row, if there is one. -/
  | markOidCommitted (oid : String)
  /-- Read the table of object ids. -/
  | allOids
  /-- Insert a project without objects unless there is one of that name. -/
  | ensureProject (name : String)
  /-- Add an object to a set of a project, which is made if need be. -/
  | addProjectOid (name oid : String) (m : Membership)
  /-- Take an object out of the pending set of a project, if there is one. -/
  | removePendingProjectOid (name oid : String)
  /-- List the projects that hold an object in one of their sets. -/
  | projectsWithOid (oid : String) (m : Membership)
  /-- Read the table of projects. -/
  | allProjects
  /-- Read the password hash of a user. -/
  | findUser (name : String)
  /-- Insert a user unless there is one of that name. -/
  | insertUserIfAbsent (name hash : String)
  /-- Delete a user, if there is one. -/
  | deleteUser (name : String)
  /-- List the users. -/
  | allUsers
  /-- Close the session. -/
  | close
deriving DecidableEq, Repr

/-- What a successful statement answers. -/
@[reducible] def Call.Answer : Call → Type
  | .findOid _ => Option OidRow
  | .insertPendingOid _ _ => Bool
  | .markOidCommitted _ => Unit
  | .allOids => List OidRow
  | .ensureProject _ => Unit
  | .addProjectOid _ _ _ => Unit
  | .removePendingProjectOid _ _ => Unit
  | .projectsWithOid _ _ => List String
  | .allProjects => List ProjectRow
  | .findUser _ => Option String
  | .insertUserIfAbsent _ _ => Bool
  | .deleteUser _ => Unit
  | .allUsers => List String
  | .close => Unit

/-- What a statement replies: its answer, or why it failed. -/
@[reducible] def Call.Reply (c : Call) : Type := Except Error c.Answer

/-- The kind of a statement. -/
inductive Kind where
  /-- The kinds, one for each statement. -/
  | findOid | insertPendingOid | markOidCommitted | allOids | ensureProject | addProjectOid
  | removePendingProjectOid | projectsWithOid | allProjects | findUser | insertUserIfAbsent
  | deleteUser | allUsers | close
deriving DecidableEq, Repr

/-- The kind of a statement. -/
def Call.kind : Call → Kind
  | .findOid _ => .findOid
  | .insertPendingOid _ _ => .insertPendingOid
  | .markOidCommitted _ => .markOidCommitted
  | .allOids => .allOids
  | .ensureProject _ => .ensureProject
  | .addProjectOid _ _ _ => .addProjectOid
  | .removePendingProjectOid _ _ => .removePendingProjectOid
  | .projectsWithOid _ _ => .projectsWithOid
  | .allProjects => .allProjects
  | .findUser _ => .findUser
  | .insertUserIfAbsent _ _ => .insertUserIfAbsent
  | .deleteUser _ => .deleteUser
  | .allUsers => .allUsers
  | .close => .close

end Depot.Column
