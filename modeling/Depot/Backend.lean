import Depot.Column.Cluster
import Depot.Column.Script
import Depot.Column.Store
import Depot.Embedded.Store
import Depot.Relational.Store

/-!
# Backends

A registry over storage of any kind: the tables it keeps and the operations on them.

Headlines
* `Backend.perform` gives the outcome of each operation and the backend after it.
-/

namespace Depot

open Credential (Gate)
open Registry (Operation Outcome)

/-- Storage of some kind. -/
inductive Backend where
  /-- A key-value database in a file. -/
  | embedded (d : Embedded.Database)
  /-- A relational database. -/
  | relational (d : Relational.Database)
  /-- Column tables in memory. -/
  | column (s : Column.Session)
  /-- A cluster of column stores. -/
  | cluster (n : Column.Connection)

namespace Backend

/-- The outcome of an operation, and the backend after it. -/
def perform (gate : Gate) (op : Operation) : Backend → Outcome × Backend
  | .embedded d =>
    let (outcome, d) := Embedded.storage.perform gate Embedded.Database.step d op
    (outcome, .embedded d)
  | .relational d =>
    let (outcome, d) := Relational.storage.perform gate Relational.Database.step d op
    (outcome, .relational d)
  | .column s =>
    let (outcome, s) := Column.storage.perform gate Column.Session.step s op
    (outcome, .column s)
  | .cluster n =>
    let (outcome, n) := Column.storage.perform gate Column.Connection.step n op
    (outcome, .cluster n)

/-- The outcomes of operations one after another, and the backend after them. -/
def performAll (gate : Gate) : List Operation → Backend → List Outcome × Backend
  | [], b => ([], b)
  | op :: rest, b =>
    let (outcome, b) := b.perform gate op
    let (outcomes, b) := performAll gate rest b
    (outcome :: outcomes, b)

/-- Opens the storage again. -/
def reopen : Backend → Backend
  | .embedded d => .embedded d.reopen
  | .relational d => .relational d.reopen
  | b => b

end Backend

end Depot
