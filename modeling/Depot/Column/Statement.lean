import Depot.Table

/-!
# Statements on a cluster

The statements that a column store is sent as text with bound values: what each one means, how it is
written, and what it may answer. Names of tables and columns are fixed texts; what comes from a
caller is always a bound value.
-/

namespace Depot.Column

/-- A value in a row. -/
inductive Datum where
  /-- A text. -/
  | text (s : String)
  /-- A whole number. -/
  | int (n : Int)
  /-- A truth value. -/
  | flag (b : Bool)
  /-- A set of texts. -/
  | set (members : List String)
deriving DecidableEq, Repr

/-- A table of the keyspace. -/
inductive TableName where
  /-- Object ids. -/
  | oids
  /-- Projects. -/
  | projects
  /-- Users. -/
  | users
deriving DecidableEq, Repr

namespace TableName

/-- The name of a table in statements. -/
def name : TableName → String
  | .oids => "oids"
  | .projects => "projects"
  | .users => "users"

/-- The name of the column that holds the key. -/
def keyColumn : TableName → String
  | .oids => "oid"
  | .projects => "name"
  | .users => "username"

/-- The other columns with their types. -/
def otherColumns : TableName → List (String × String)
  | .oids => [("size", "bigint"), ("pending", "boolean")]
  | .projects => [("oids", "set<text>"), ("pending", "set<text>")]
  | .users => [("password", "text")]

/-- The columns, the key first. -/
def columns (t : TableName) : List String := t.keyColumn :: t.otherColumns.map Prod.fst

end TableName

/-- What stands for a value in a statement. -/
inductive Term where
  /-- A value bound to a placeholder. -/
  | bound (d : Datum)
  /-- A truth value in the text. -/
  | literal (b : Bool)
deriving DecidableEq, Repr

/-- The value that a term stands for. -/
def Term.value : Term → Datum
  | .bound d => d
  | .literal b => .flag b

/-- A term in the text of a statement. -/
def Term.written : Term → String
  | .bound _ => "?"
  | .literal b => if b then "true" else "false"

/-- The value that a term binds, if it does. -/
def Term.bound? : Term → Option Datum
  | .bound d => some d
  | .literal _ => none

/-- What an update does to a column. -/
inductive Change where
  /-- Give it a value. -/
  | assign (term : Term)
  /-- Add a member to its set. -/
  | add (member : String)
  /-- Take a member out of its set. -/
  | remove (member : String)
deriving DecidableEq, Repr

/-- Which rows are meant. -/
inductive Filter where
  /-- All. -/
  | all
  /-- The one with a key. -/
  | key (k : String)
  /-- Those whose set in a column has a member. -/
  | contains (column member : String)
deriving DecidableEq, Repr

/-- A statement. -/
inductive Statement where
  /-- Make a keyspace unless there is one of that name. -/
  | createKeyspace (name : String) (replicas : Nat)
  /-- Go on in a keyspace. -/
  | use (name : String)
  /-- Make a table unless there is one of that name. -/
  | createTable (t : TableName)
  /-- Make an index on the sets of a column unless there is one. -/
  | createIndex (t : TableName) (column : String)
  /-- Read columns of rows. -/
  | select (columns : List String) (t : TableName) (filter : Filter)
  /-- Write columns of a row, or only if there is no such row. -/
  | insert (t : TableName) (key : String) (fields : List (String × Term)) (ifAbsent : Bool)
  /-- Change a column of a row, or only if there is such a row. -/
  | update (t : TableName) (column : String) (change : Change) (key : String) (ifPresent : Bool)
  /-- Delete a row if there is one. -/
  | delete (t : TableName) (key : String)
deriving DecidableEq, Repr

namespace Statement

/-- Names with commas between them. -/
def listed (names : List String) : String := String.intercalate ", " names

/-- The condition of a filter, with its bound values. -/
def conditionText (t : TableName) : Filter → String
  | .all => ""
  | .key _ => s!" WHERE {t.keyColumn} = ?"
  | .contains column _ => s!" WHERE {column} CONTAINS ?"

/-- The assignment of a change. -/
def changeText (column : String) : Change → String
  | .assign term => s!"{column} = {term.written}"
  | .add _ => s!"{column} = {column} + ?"
  | .remove _ => s!"{column} = {column} - ?"

/-- The definition of a table's columns. -/
def columnsText (t : TableName) : String :=
  listed ((t.keyColumn ++ " text PRIMARY KEY") ::
    t.otherColumns.map fun (column, type) => column ++ " " ++ type)

/-- The text of a statement, with question marks in the place of bound values. -/
def text : Statement → String
  | .createKeyspace name replicas =>
    s!"CREATE KEYSPACE IF NOT EXISTS {name} WITH replication = " ++
      "\x7b'class': 'SimpleStrategy', 'replication_factor': " ++ toString replicas ++ "\x7d"
  | .use name => s!"USE {name}"
  | .createTable t => s!"CREATE TABLE IF NOT EXISTS {t.name} (" ++ columnsText t ++ ")"
  | .createIndex t column => s!"CREATE INDEX IF NOT EXISTS ON {t.name} ({column})"
  | .select columns t filter =>
    s!"SELECT {listed columns} FROM {t.name}" ++ conditionText t filter
  | .insert t _ fields ifAbsent =>
    s!"INSERT INTO {t.name} ({listed (t.keyColumn :: fields.map Prod.fst)}) VALUES (" ++
      listed ("?" :: fields.map fun f => f.2.written) ++ ")" ++
      if ifAbsent then " IF NOT EXISTS" else ""
  | .update t column change _ ifPresent =>
    s!"UPDATE {t.name} SET {changeText column change} WHERE {t.keyColumn} = ?" ++
      if ifPresent then " IF EXISTS" else ""
  | .delete t _ => s!"DELETE FROM {t.name} WHERE {t.keyColumn} = ? IF EXISTS"

/-- The value that a change binds. -/
def changeValue? : Change → Option Datum
  | .assign term => term.bound?
  | .add m | .remove m => some (.set [m])

/-- The bound values in the order of their question marks. -/
def values : Statement → List Datum
  | .createKeyspace _ _ | .use _ | .createTable _ | .createIndex _ _ => []
  | .select _ _ filter =>
    match filter with
    | .all => []
    | .key k => [.text k]
    | .contains _ member => [.text member]
  | .insert _ key fields _ => .text key :: fields.filterMap fun f => f.2.bound?
  | .update _ _ change key _ => (changeValue? change).toList ++ [.text key]
  | .delete _ key => [.text key]

/-- How many replicas have to take part: most of them. Entering a keyspace involves none. -/
def consistency : Statement → String
  | .use _ => ""
  | _ => "QUORUM"

end Statement

/-- A row of an answer; a column may have no value. -/
abbrev Cells := List (Option Datum)

/-- What a statement answers. -/
inductive Result where
  /-- Nothing. -/
  | nothing
  /-- That a keyspace has been entered. -/
  | entered
  /-- Rows. -/
  | rows (rows : List Cells)
deriving DecidableEq, Repr

end Depot.Column
