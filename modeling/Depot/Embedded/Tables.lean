import Depot.Registry.Error
import Depot.Registry.Record

/-!
# Embedded tables

A key-value database in a file: each object and each project is one stored record, and users map to
their password hashes. Each function is a transaction: it changes all it names or, when a record
cannot be read, nothing.
-/

namespace Depot.Embedded

open Registry

/-- The tables of the database. -/
structure Tables where
  /-- Objects by id, as stored records. -/
  objects : Table String Bytes := ∅
  /-- Projects by name, as stored records. -/
  projects : Table String Bytes := ∅
  /-- Users with their password hashes. -/
  users : Table String String := ∅
deriving DecidableEq

/-- The error for a record that cannot be read. -/
def undecodable : Error := .backend .undecodable

/-- The object of a stored record. -/
def readObject (b : Bytes) : Except Error Object :=
  match Object.decode? b with
  | some o => .ok o
  | none => .error undecodable

/-- The project of a stored record. -/
def readProject (b : Bytes) : Except Error Project :=
  match Project.decode? b with
  | some p => .ok p
  | none => .error undecodable

namespace Tables

/-- Reads the record of an object. -/
def findObject (t : Tables) (oid : String) : Except Error (Option Object) :=
  match t.objects.get? oid with
  | some b => (readObject b).map some
  | none => .ok none

/-- Makes a project without objects unless there is one of that name. -/
def ensureProject (t : Tables) (name : String) : Tables :=
  if t.projects.contains name then t
  else { t with projects := t.projects.insert name (Project.empty name).encode }

/-- Stores an object unless there is a record under its id, and makes the projects it names. The
answer is the record now stored. -/
def register (t : Tables) (o : Object) : Except Error (Object × Tables) := do
  match ← t.findObject o.oid with
  | some stored => return (stored, t)
  | none =>
    let t := { t with objects := t.objects.insert o.oid o.encode }
    return (o, o.projects.foldl ensureProject t)

/-- Lists an object under a project, which is made if need be. -/
def enlist (oid : String) (projects : Table String Bytes) (name : String) :
    Except Error (Table String Bytes) := do
  let p ← match projects.get? name with
    | some b => readProject b
    | none => .ok (Project.empty name)
  return projects.insert name (p.insert oid).encode

/-- Marks the record under an id as committed and lists the id under the projects of the record.
The answer is the record now stored, if there is one. -/
def commit (t : Tables) (oid : String) : Except Error (Option Object × Tables) := do
  match ← t.findObject oid with
  | none => return (none, t)
  | some stored =>
    let o := { stored with existing := true }
    let projects ← o.projects.foldlM (enlist oid) t.projects
    return (some o, { t with objects := t.objects.insert oid o.encode, projects := projects })

/-- All objects in the order of their keys. -/
def allObjects (t : Tables) : Except Error (List Object) := t.objects.values.mapM readObject

/-- All projects in the order of their keys. -/
def allProjects (t : Tables) : Except Error (List Project) := t.projects.values.mapM readProject

/-- Adds a user unless there is one of that name. -/
def insertUser (t : Tables) (name hash : String) : Tables :=
  if t.users.contains name then t else { t with users := t.users.insert name hash }

/-- Deletes a user. -/
def deleteUser (t : Tables) (name : String) : Tables := { t with users := t.users.erase name }

end Tables

end Depot.Embedded
