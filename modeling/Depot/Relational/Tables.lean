import Depot.Registry.Error
import Depot.Registry.Object

/-!
# Relational tables

Objects with a pending flag, projects with numbers, a table that joins the two, and users. Each
function is a transaction or a query; a query that joins tables gives its rows in the order of the
joining table.
-/

namespace Depot.Relational

open Registry

/-- A row of the table of objects. -/
structure OidEntry where
  /-- The size. -/
  size : Int
  /-- Whether the object is pending. -/
  pending : Bool
deriving DecidableEq, Repr

/-- The tables. -/
structure Tables where
  /-- Objects by id. -/
  oids : Table String OidEntry := ∅
  /-- Projects by name, with their numbers. -/
  projects : Table String Nat := ∅
  /-- The number of the next project. -/
  nextProject : Nat := 1
  /-- Which object belongs to which project, in the order of insertion. -/
  maps : List (String × Nat) := []
  /-- Users with their password hashes. -/
  users : Table String String := ∅
deriving DecidableEq

namespace Tables

/-- The name of the project with a number. -/
def projectName? (t : Tables) (id : Nat) : Option String :=
  (t.projects.entries.find? fun e => e.2 == id).map Prod.fst

/-- The names of the projects of an object, ascending. -/
def projectsOf (t : Tables) (oid : String) : List String :=
  sortNames ((t.maps.filter fun m => m.1 == oid).filterMap fun m => t.projectName? m.2)

/-- Reads an object. -/
def findObject (t : Tables) (oid : String) : Option Object :=
  (t.oids.get? oid).map fun e => ⟨oid, e.size, t.projectsOf oid, !e.pending⟩

/-- Adds a project unless there is one of that name. -/
def insertProject (t : Tables) (name : String) : Tables :=
  if t.projects.contains name then t
  else { t with
    projects := t.projects.insert name t.nextProject
    nextProject := t.nextProject + 1 }

/-- Adds an object to a project unless it belongs to it. -/
def insertMap (t : Tables) (oid : String) (id : Nat) : Tables :=
  if t.maps.contains (oid, id) then t else { t with maps := t.maps ++ [(oid, id)] }

/-- Adds an object to a project of a name, which is made if need be. -/
def join (oid : String) (t : Tables) (name : String) : Tables :=
  let t := t.insertProject name
  match t.projects.get? name with
  | some id => t.insertMap oid id
  | none => t

/-- Inserts a pending object unless there is one of its id, and adds one that is new to its
projects. -/
def register (t : Tables) (r : Object) : Tables :=
  if t.oids.contains r.oid then t
  else
    r.projects.foldl (join r.oid) { t with oids := t.oids.insert r.oid ⟨r.size, true⟩ }

/-- Clears the pending flag of an object, if there is one. -/
def clearPending (t : Tables) (oid : String) : Tables :=
  { t with oids := t.oids.modify oid fun e => { e with pending := false } }

/-- Names of projects and ids of their committed objects, a row for each membership. -/
def committedMembership (t : Tables) : List (String × String) :=
  t.maps.filterMap fun m => do
    let name ← t.projectName? m.2
    let entry ← t.oids.get? m.1
    if entry.pending then none else some (name, m.1)

/-- Ids and sizes of the committed objects, ascending. -/
def committedObjects (t : Tables) : List (String × Int) :=
  (t.oids.entries.filter fun e => !e.2.pending).map fun e => (e.1, e.2.size)

/-- Adds a user unless there is one of that name. -/
def insertUser (t : Tables) (name hash : String) : Tables :=
  if t.users.contains name then t else { t with users := t.users.insert name hash }

/-- Deletes a user. -/
def deleteUser (t : Tables) (name : String) : Tables := { t with users := t.users.erase name }

end Tables

end Depot.Relational
