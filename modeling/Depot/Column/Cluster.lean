import Depot.Column.Query
import Depot.Column.Tables

/-!
# A cluster

Tables of rows behind statements, kept in memory: a write makes the row it names, a conditional one
tells whether it took effect, an empty set is no value, and rows come in descending order. Answers
that go wrong are planned ahead.

Headlines
* `Rows.execute` says what each statement answers and what it leaves.
* `Connection.step` answers the calls of a column store over a cluster.
-/

namespace Depot.Column

open Credential (Login)
open Registry (Error)

/-- The values of a row's columns without that of its key. -/
abbrev Row := Table String Datum

/-- The rows of each table by key. -/
structure Rows where
  /-- Object ids. -/
  oids : Table String Row := ∅
  /-- Projects. -/
  projects : Table String Row := ∅
  /-- Users. -/
  users : Table String Row := ∅
deriving DecidableEq

namespace Rows

/-- The rows of a table. -/
def get (r : Rows) : TableName → Table String Row
  | .oids => r.oids
  | .projects => r.projects
  | .users => r.users

/-- Replaces the rows of a table. -/
def put (r : Rows) (t : TableName) (rows : Table String Row) : Rows :=
  match t with
  | .oids => { r with oids := rows }
  | .projects => { r with projects := rows }
  | .users => { r with users := rows }

/-- The value of a column. -/
def cell (t : TableName) (key : String) (row : Row) (column : String) : Option Datum :=
  if column = t.keyColumn then some (.text key) else row.get? column

/-- The members of the set in a column. -/
def members (row : Row) (column : String) : Names :=
  match row.get? column with
  | some (.set ms) => Names.ofList ms
  | _ => ∅

/-- Puts a set into a column; one without members is no value. -/
def putMembers (row : Row) (column : String) (ms : Names) : Row :=
  if ms.toList.isEmpty then row.erase column else row.insert column (.set ms.toList)

/-- A row after a change to a column. -/
def change (row : Row) (column : String) : Change → Row
  | .assign term => row.insert column term.value
  | .add m => putMembers row column ((members row column).add m)
  | .remove m => putMembers row column ((members row column).erase m)

/-- Whether a change makes a row that is not there. -/
def makesRow : Change → Bool
  | .remove _ => false
  | _ => true

/-- Whether a row is meant. -/
def selects (filter : Filter) (key : String) (row : Row) : Bool :=
  match filter with
  | .all => true
  | .key k => key == k
  | .contains column m => (members row column).contains m

/-- Columns of the rows that are meant, in ascending order. -/
def select (r : Rows) (columns : List String) (t : TableName) (filter : Filter) : List Cells :=
  ((r.get t).entries.filter fun (key, row) => selects filter key row).map fun (key, row) =>
    columns.map (cell t key row)

/-- The answer of a conditional statement. -/
def applied (b : Bool) : Result := .rows [[some (.flag b)]]

/-- What a statement answers, and the rows after it. -/
def execute (r : Rows) : Statement → Result × Rows
  | .createKeyspace _ _ | .createTable _ | .createIndex _ _ => (.nothing, r)
  | .use _ => (.entered, r)
  | .select columns t filter => (.rows (r.select columns t filter).reverse, r)
  | .insert t key fields ifAbsent =>
    let rows := r.get t
    let written := fields.foldl (fun row f => row.insert f.1 f.2.value) ((rows.get? key).getD ∅)
    if ifAbsent then
      if rows.contains key then (applied false, r)
      else (applied true, r.put t (rows.insert key written))
    else (.nothing, r.put t (rows.insert key written))
  | .update t column ch key ifPresent =>
    let rows := r.get t
    let changed := change ((rows.get? key).getD ∅) column ch
    if ifPresent then
      if rows.contains key then (applied true, r.put t (rows.insert key changed))
      else (applied false, r)
    else if rows.contains key || makesRow ch then
      (.nothing, r.put t (rows.insert key changed))
    else (.nothing, r)
  | .delete t key =>
    let rows := r.get t
    (applied (rows.contains key), r.put t (rows.erase key))

end Rows

/-- An answer that goes wrong. -/
structure Misanswer where
  /-- How the text of the statement starts that it answers. -/
  start : String
  /-- How many such statements are executed before. -/
  skip : Nat := 0
  /-- The answer; none for an error. -/
  answer : Option Result
deriving DecidableEq, Repr

/-- A statement that a cluster has received. -/
structure Received where
  /-- The statement. -/
  statement : Statement
  /-- The number of the first row that is asked for, for a page other than the first. -/
  offset : Option Nat := none
deriving DecidableEq, Repr

/-- A cluster. -/
structure Cluster where
  /-- The addresses that it is reached at. -/
  addresses : List String := []
  /-- The credentials that it wants. -/
  login : Option Login := none
  /-- The rows. -/
  rows : Rows := {}
  /-- The most rows of a page; zero for no bound. -/
  pageRows : Nat := 0
  /-- The answers that go wrong. -/
  misanswers : List Misanswer := []
  /-- The statements received so far, the latest first. -/
  received : List Received := []
  /-- The credentials received so far, each once. -/
  logins : List Login := []
deriving DecidableEq

namespace Cluster

/-- The planned answer to a statement, and the plans after it. The first plan that fits counts: it
is used up, or waits for one statement less. -/
def takePlan (text : String) : List Misanswer → Option (Option Result) × List Misanswer
  | [] => (none, [])
  | m :: rest =>
    if m.start.toList.isPrefixOf text.toList then
      if m.skip = 0 then (some m.answer, rest)
      else (none, { m with skip := m.skip - 1 } :: rest)
    else
      let (answer, rest) := takePlan text rest
      (answer, m :: rest)

/-- The error that a cluster answers. -/
def failed : Error := .backend (.reported "the cluster failed")

/-- What a statement answers, and the cluster after it. -/
def execute (c : Cluster) (s : Statement) : Except Error Result × Cluster :=
  let (planned, misanswers) := takePlan s.text c.misanswers
  let c := { c with misanswers := misanswers, received := ⟨s, none⟩ :: c.received }
  match planned with
  | some (some answer) => (.ok answer, c)
  | some none => (.error failed, c)
  | none =>
    let (answer, rows) := c.rows.execute s
    (.ok answer, { c with rows := rows })

/-- The first page of an answer. -/
def firstPage (pageRows : Nat) : Result → Result
  | .rows rows => .rows (if pageRows = 0 then rows else rows.take pageRows)
  | answer => answer

/-- The numbers of the rows at which the pages after the first one start. -/
def pageStarts (pageRows : Nat) : Result → List Nat
  | .rows rows =>
    if pageRows = 0 then []
    else (List.range ((rows.length - 1) / pageRows)).map fun page => (page + 1) * pageRows
  | _ => []

/-- Asks for the pages after the first one. -/
def turnPages (c : Cluster) (s : Statement) (answer : Result) : Cluster :=
  let asked := (pageStarts c.pageRows answer).map fun start => Received.mk s (some start)
  { c with received := asked.reverse ++ c.received }

/-- Lets a client in that asks at some addresses. -/
def welcome (c : Cluster) (hosts : List String) (login : Option Login) :
    Except Error Unit × Cluster :=
  if !hosts.any c.addresses.contains then (.error (.backend .noContact), c)
  else
    match c.login, login with
    | none, _ => (.ok (), c)
    | some _, none => (.error failed, c)
    | some wanted, some given =>
      let logins := if c.logins.contains given then c.logins else c.logins ++ [given]
      (if given = wanted then .ok () else .error failed, { c with logins := logins })

/-- What a cluster replies, and the cluster after it. -/
def step (c : Cluster) : (a : Ask) → a.Reply × Cluster
  | .greet hosts login => c.welcome hosts login
  | .first s =>
    let (answer, c) := c.execute s
    (answer.map (firstPage c.pageRows), c)
  | .all s =>
    match c.execute s with
    | (.ok answer, c) => (.ok answer, c.turnPages s answer)
    | (.error e, c) => (.error e, c)

end Cluster

/-- A connection to a cluster that may be closed. -/
structure Connection where
  /-- The cluster. -/
  cluster : Cluster
  /-- Whether the connection is closed. -/
  closed : Bool := false
deriving DecidableEq

namespace Connection

/-- Connects to a cluster. -/
def connect (config : Config) (c : Cluster) : Except Error Unit × Connection :=
  let (outcome, c) := Program.run Cluster.step (Column.connect config).run c
  (outcome, { cluster := c })

/-- What a call replies over a cluster, and the connection after it. -/
def step (n : Connection) (c : Call) : c.Reply × Connection :=
  match c with
  | .close => (.ok (), { n with closed := true })
  | c =>
    if n.closed then (.error .closed, n)
    else
      let (reply, cluster) := Program.run Cluster.step c.query.run n.cluster
      (reply, { n with cluster := cluster })

end Connection

end Depot.Column
