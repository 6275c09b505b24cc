import Depot.Credential.Gate
import Depot.Registry.Operation

/-!
# Registries over storage

A kind of storage offers a handful of steps; the operations of a registry are the same over each of
them. Before an operation on an object reaches the storage, its caller has to pass the gate and a
registration has to make sense.

Headlines
* `run` gives each operation as a program over the calls of the storage.
-/

namespace Depot.Registry

open Credential (Gate)

/-- A computation over the calls of a storage that may fail. -/
abbrev Action (Call : Type) (Reply : Call → Type) (α : Type) :=
  ExceptT Error (Program Call Reply) α

/-- The steps that a kind of storage offers, each written in its calls. -/
structure Storage (Call : Type) (Reply : Call → Type) where
  /-- The password hash of a user. -/
  passwordHash : String → Program Call Reply (Except Error (Option String))
  /-- The record of an object. -/
  find : String → Action Call Reply (Option Object)
  /-- Registers an object unless there is a record, and gives the record that there is then. -/
  register : Request → Action Call Reply (Option Object)
  /-- Commits an object if there is a record, and gives that. -/
  commit : String → Action Call Reply (Option Object)
  /-- Adds a user with a password hash unless there is one of that name. -/
  insertUser : String → String → Action Call Reply Unit
  /-- Deletes a user. -/
  deleteUser : String → Action Call Reply Unit
  /-- The names of the users, ascending. -/
  userNames : Action Call Reply (List String)
  /-- Adds a project unless there is one of that name. -/
  ensureProject : String → Action Call Reply Unit
  /-- The projects with their committed objects, ascending. -/
  projects : Action Call Reply (List Project)
  /-- The committed objects, ascending. -/
  objects : Action Call Reply (List Object)
  /-- Gives up the storage. -/
  close : Action Call Reply Unit

namespace Storage

variable {Call : Type} {Reply : Call → Type} (s : Storage Call Reply) (gate : Gate)

/-- Lets the caller of an operation through. -/
def authorize (r : Request) : Action Call Reply Unit :=
  gate.authorize s.passwordHash r.authorization

/-- An object that has to be there. -/
def require (oid : String) : Option Object → Action Call Reply Object
  | some o => return o
  | none => throw (.notFound (.object oid))

/-- A committed object. -/
def get (r : Request) : Action Call Reply Object := do
  s.authorize gate r
  let o ← require r.oid (← s.find r.oid)
  if o.existing then return o else throw (.notFound (.pending r.oid))

/-- An object in either state. -/
def getPending (r : Request) : Action Call Reply Object := do
  s.authorize gate r
  require r.oid (← s.find r.oid)

/-- Registers a pending object, or gives the record that there is. -/
def put (r : Request) : Action Call Reply Object := do
  s.authorize gate r
  r.validate
  require r.oid (← s.register r)

/-- Commits a registered object. -/
def commitObject (r : Request) : Action Call Reply Object := do
  s.authorize gate r
  require r.oid (← s.commit r.oid)

/-- Adds an account unless there is one of that name. The password is hashed only for a new one. -/
def addUser (name password : String) (salt : Bytes) : Action Call Reply Unit := do
  gate.requireAccounts
  requireName "user" name
  match ← ExceptT.mk (s.passwordHash name) with
  | some _ => return ()
  | none => s.insertUser name (Credential.Password.hash salt password)

/-- Deletes an account, if there is one. -/
def removeUser (name : String) : Action Call Reply Unit := do
  gate.requireAccounts
  s.deleteUser name

/-- The accounts. -/
def users : Action Call Reply (List User) := do
  gate.requireAccounts
  return (← s.userNames).map User.mk

/-- Adds a project unless there is one of that name. -/
def addProject (name : String) : Action Call Reply Unit := do
  requireName "project" name
  s.ensureProject name

/-- An operation as a program over the calls of the storage. -/
def run : Operation → Action Call Reply Answer
  | .get r => return .object (← s.get gate r)
  | .getPending r => return .object (← s.getPending gate r)
  | .put r => return .object (← s.put gate r)
  | .commit r => return .object (← s.commitObject gate r)
  | .addUser name password salt => do s.addUser gate name password salt; return .unit
  | .deleteUser name => do s.removeUser gate name; return .unit
  | .users => return .users (← s.users gate)
  | .addProject name => do s.addProject name; return .unit
  | .projects => return .projects (← s.projects)
  | .objects => return .objects (← s.objects)
  | .close => do s.close; return .unit

/-- The outcome of an operation over a service that answers the calls, and the state after it. -/
def perform {σ : Type} (service : Service σ Call Reply) (state : σ) (op : Operation) :
    Outcome × σ :=
  Program.run service (s.run gate op).run state

end Storage

end Depot.Registry
