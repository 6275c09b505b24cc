import Depot.Column.Tables

/-!
# Scripted sessions

A session over tables in memory that logs its statements, lets some of them fail, lets other callers'
statements go before some of them, and may answer its lists in reverse. What a registry does under
such a script is what it does under a server that fails, is busy, or keeps its rows in another
order.
-/

namespace Depot.Column

open Registry (Error)

/-- What happens at the statement of a kind that is the `nth` one of its kind, counted from one. -/
structure Planned (α : Type) where
  /-- The kind of statement. -/
  kind : Kind
  /-- Its number among those of its kind. -/
  nth : Nat
  /-- What happens. -/
  what : α

/-- What is to happen in a session. -/
structure Script where
  /-- Whether lists are answered in reverse. -/
  reversed : Bool := false
  /-- Statements that fail without reaching the tables, and the text of their failure. -/
  faults : List (Planned String) := []
  /-- Statements that other statements precede. -/
  races : List (Planned (List Call)) := []

/-- A scripted session. -/
structure Session where
  /-- The tables. -/
  tables : Tables := {}
  /-- What is to happen. -/
  script : Script := {}
  /-- The statements made so far, the latest first. -/
  log : List Call := []

/-- An answer with its list in reverse. -/
def reverseAnswer : (c : Call) → c.Answer → c.Answer
  | .allOids, rows => rows.reverse
  | .projectsWithOid _ _, names => names.reverse
  | .allProjects, rows => (rows.map fun row => { row with oids := row.oids.reverse }).reverse
  | .allUsers, names => names.reverse
  | .findOid _, a => a
  | .insertPendingOid _ _, a => a
  | .markOidCommitted _, a => a
  | .ensureProject _, a => a
  | .addProjectOid _ _ _, a => a
  | .removePendingProjectOid _ _, a => a
  | .findUser _, a => a
  | .insertUserIfAbsent _ _, a => a
  | .deleteUser _, a => a
  | .close, a => a

/-- What is planned for the `nth` statement of a kind. -/
def plannedFor {α : Type} (plans : List (Planned α)) (kind : Kind) (nth : Nat) : List α :=
  (plans.filter fun p => p.kind == kind && p.nth == nth).map Planned.what

/-- The tables after statements whose replies nobody reads. -/
def Tables.runAll (t : Tables) (cs : List Call) : Tables := cs.foldl (fun t c => (t.step c).2) t

/-- What a statement replies in a scripted session, and the session after it. -/
def Session.step (s : Session) (c : Call) : c.Reply × Session :=
  let log := c :: s.log
  let nth := (log.filter fun c' => c'.kind == c.kind).length
  let before := (plannedFor s.script.races c.kind nth).foldl Tables.runAll s.tables
  match plannedFor s.script.faults c.kind nth with
  | text :: _ => (.error (.backend (.reported text)), { s with tables := before, log := log })
  | [] =>
    let (reply, after) := before.step c
    let reply := if s.script.reversed then reply.map (reverseAnswer c) else reply
    (reply, { s with tables := after, log := log })

end Depot.Column
