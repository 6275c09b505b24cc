import Depot.Column.Call
import Depot.Table

/-!
# Column tables in memory

The tables of a column store and what each statement does to them.
-/

namespace Depot.Column

open Registry (Error)

/-- The sets of object ids of a project. -/
structure Members where
  /-- The committed objects. -/
  committed : Names := ∅
  /-- The pending objects. -/
  pending : Names := ∅
deriving DecidableEq

/-- One of the two sets. -/
def Members.get (s : Members) : Membership → Names
  | .pending => s.pending
  | .committed => s.committed

/-- Adds an object to one of the two sets. -/
def Members.add (s : Members) (oid : String) : Membership → Members
  | .pending => { s with pending := s.pending.add oid }
  | .committed => { s with committed := s.committed.add oid }

/-- The size of an object and whether it is pending. -/
structure OidEntry where
  /-- The size. -/
  size : Int
  /-- Whether the object is pending. -/
  pending : Bool
deriving DecidableEq, Repr

/-- The tables, and whether the session over them has been closed. -/
structure Tables where
  /-- Object ids. -/
  oids : Table String OidEntry := ∅
  /-- Projects. -/
  projects : Table String Members := ∅
  /-- Users with their password hashes. -/
  users : Table String String := ∅
  /-- Whether the session is closed. -/
  closed : Bool := false
deriving DecidableEq

namespace Tables

/-- The tables before any statement. -/
def empty : Tables := {}

/-- A row of the table of object ids as a statement answers it. -/
def oidRow (e : String × OidEntry) : OidRow := ⟨e.1, e.2.size, e.2.pending⟩

/-- A row of the table of projects as a statement answers it. -/
def projectRow (e : String × Members) : ProjectRow :=
  ⟨e.1, e.2.committed.toList, e.2.pending.toList⟩

/-- The sets of a project, empty if there is none. -/
def members (t : Tables) (name : String) : Members := (t.projects.get? name).getD {}

/-- What a statement answers on open tables, and the tables after it. -/
def answer (t : Tables) : (c : Call) → c.Answer × Tables
  | .findOid oid => ((t.oids.get? oid).map fun e => oidRow (oid, e), t)
  | .insertPendingOid oid size =>
    if t.oids.contains oid then (false, t)
    else (true, { t with oids := t.oids.insert oid ⟨size, true⟩ })
  | .markOidCommitted oid =>
    ((), { t with oids := t.oids.modify oid fun e => { e with pending := false } })
  | .allOids => (t.oids.entries.map oidRow, t)
  | .ensureProject name =>
    ((), { t with projects := t.projects.insert name (t.members name) })
  | .addProjectOid name oid m =>
    ((), { t with projects := t.projects.insert name ((t.members name).add oid m) })
  | .removePendingProjectOid name oid =>
    ((), { t with
      projects := t.projects.modify name fun s => { s with pending := s.pending.erase oid } })
  | .projectsWithOid oid m =>
    ((t.projects.entries.filter fun e => (e.2.get m).contains oid).map Prod.fst, t)
  | .allProjects => (t.projects.entries.map projectRow, t)
  | .findUser name => (t.users.get? name, t)
  | .insertUserIfAbsent name hash =>
    if t.users.contains name then (false, t)
    else (true, { t with users := t.users.insert name hash })
  | .deleteUser name => ((), { t with users := t.users.erase name })
  | .allUsers => (t.users.keys, t)
  | .close => ((), { t with closed := true })

/-- What a statement replies, and the tables after it. On closed tables every statement but another
closing fails. -/
def step (t : Tables) (c : Call) : c.Reply × Tables :=
  if t.closed && c.kind != .close then (.error .closed, t)
  else
    let (a, t') := t.answer c
    (.ok a, t')

end Tables

end Depot.Column
