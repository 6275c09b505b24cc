import Depot.Bytes.Basic
import Depot.Registry.Request

/-!
# Operations of a registry

The calls that every kind of registry offers, and what they answer.
-/

namespace Depot.Registry

/-- A call on a registry. A new account's salt comes with the call. -/
inductive Operation where
  /-- A committed object. -/
  | get (r : Request)
  /-- An object in either state. -/
  | getPending (r : Request)
  /-- Register a pending object, or give the record that there is. -/
  | put (r : Request)
  /-- Commit a registered object. -/
  | commit (r : Request)
  /-- Add an account unless there is one of that name. -/
  | addUser (name password : String) (salt : Bytes)
  /-- Delete an account. -/
  | deleteUser (name : String)
  /-- The accounts. -/
  | users
  /-- Add a project unless there is one of that name. -/
  | addProject (name : String)
  /-- The projects with their committed objects. -/
  | projects
  /-- The committed objects. -/
  | objects
  /-- Close the registry. -/
  | close
deriving DecidableEq, Repr

/-- What a call answers. -/
inductive Answer where
  /-- Nothing but that it succeeded. -/
  | unit
  /-- An object. -/
  | object (o : Object)
  /-- Objects. -/
  | objects (os : List Object)
  /-- Projects. -/
  | projects (ps : List Project)
  /-- Users. -/
  | users (us : List User)
deriving DecidableEq, Repr

/-- The outcome of a call. -/
abbrev Outcome := Except Error Answer

end Depot.Registry
