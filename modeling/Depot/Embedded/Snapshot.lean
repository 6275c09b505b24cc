import Depot.Embedded.Tables
import Depot.Registry.Record

/-!
# Database files

An embedded database as one record: a list of its tables, each of them a map from keys to values.

Headlines
* `Tables.encode` writes a database, `Tables.decode?` reads one.
-/

namespace Depot.Embedded

open MessagePack (Value)
open Registry (textValue textOf?)

/-- A table as a record. -/
def tableValue {α : Type} (value : α → Value) (t : Table String α) : Value :=
  .map (t.entries.map fun e => (textValue e.1, value e.2))

/-- The bytes of a record. -/
def bytesOf? : Value → Option Bytes
  | .binary b => some b
  | _ => none

/-- Reads a table. -/
def tableOf? {α : Type} (read : Value → Option α) : Value → Option (Table String α)
  | .map entries =>
    (entries.mapM fun (k, v) => do some (← textOf? k, ← read v)).map Table.ofList
  | _ => none

namespace Tables

/-- A database as a record. -/
def toValue (t : Tables) : Value :=
  .array [tableValue .binary t.objects, tableValue .binary t.projects, tableValue textValue t.users]

/-- Reads a database. -/
def ofValue? : Value → Option Tables
  | .array [objects, projects, users] => do
    return ⟨← tableOf? bytesOf? objects, ← tableOf? bytesOf? projects, ← tableOf? textOf? users⟩
  | _ => none

/-- The bytes of a database file. -/
def encode (t : Tables) : Bytes := t.toValue.write

/-- The database in the bytes of a file. -/
def decode? (b : Bytes) : Option Tables := (Value.read? b).bind ofValue?

end Tables

end Depot.Embedded
