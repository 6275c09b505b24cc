import Depot.Embedded.Store
import Depot.Files.Tree
import Depot.Relational.Location
import Depot.Relational.Store

/-!
# Databases in files

A disk holds a tree of files, of which some are databases. Opening a database makes its file unless
it is there, and fails for a file that holds something else.

Headlines
* `Disk.openEmbedded` and `Disk.openRelational` give the database and the disk after it.
-/

namespace Depot

open Files (Path)
open Registry (Error)

/-- What the file of an embedded database holds. -/
inductive Embedded.File where
  /-- The tables. -/
  | tables (t : Embedded.Tables)
  /-- Tables, of which one has rows of another type. -/
  | mistyped
deriving DecidableEq

/-- Files and the databases in them. -/
structure Disk where
  /-- The files. What a database file holds is not told here. -/
  files : Files.Tree := {}
  /-- The embedded databases by their paths. -/
  embedded : Table Path Embedded.File := ∅
  /-- The relational databases by their paths. -/
  relational : Table Path Relational.Tables := ∅

namespace Disk

/-- The name of the file of an embedded database. -/
def embeddedName : String := "lfs-meta.redb"

/-- The path of the embedded database in a directory. -/
def embeddedPath (dir : Path) : Path := dir ++ [embeddedName]

/-- The error for a failed file operation. -/
def fileError (f : Files.Fault) : Error := .backend (.reported ("IO error: " ++ f.message))

/-- Puts an embedded database at a path. -/
def putEmbedded (d : Disk) (p : Path) (f : Embedded.File) : Disk :=
  { d with files := d.files.put p (.file []), embedded := d.embedded.insert p f }

/-- Puts a relational database at a path. -/
def putRelational (d : Disk) (p : Path) (t : Relational.Tables) : Disk :=
  { d with files := d.files.put p (.file []), relational := d.relational.insert p t }

/-- Opens the embedded database in a directory, which is made if need be. A file without bytes
becomes a database. -/
def openEmbedded (d : Disk) (dir : Path) : Except Error Embedded.Database × Disk :=
  match d.files.makeDirs dir with
  | (.error e, files) => (.error (fileError e), { d with files := files })
  | (.ok (), files) =>
    let d := { d with files := files }
    let p := embeddedPath dir
    match d.embedded.get? p with
    | some (.tables t) => (.ok { tables := t }, d)
    | some .mistyped => (.error (.backend .wrongTable), d)
    | none =>
      match d.files.lookForNew p with
      | .ok none | .ok (some (.file [])) => (.ok {}, d.putEmbedded p (.tables {}))
      | _ => (.error (.backend .unreadableFile), d)

/-- Opens a relational database. A file without bytes becomes a database unless nothing is
written. -/
def openRelational (d : Disk) (l : Relational.Location) :
    Except Error Relational.Database × Disk :=
  match l.file with
  | none => (.ok { lasting := false }, d)
  | some name =>
    let p := Path.ofString name
    match d.relational.get? p, d.files.lookForNew p with
    | some t, _ => (.ok { tables := t }, d)
    | none, .ok none =>
      if l.create && !l.readOnly && name.toList.getLast? != some '/' then
        (.ok {}, d.putRelational p {})
      else (.error Relational.refused, d)
    | none, .ok (some (.file [])) =>
      if l.readOnly then (.error Relational.refused, d) else (.ok {}, d.putRelational p {})
    | none, _ => (.error Relational.refused, d)

/-- Opens the database of a URL: one behind a server is never reached, so every database that is
opened is one of SQLite. What tables behind a MySQL server would answer is not modelled. -/
def connectRelational (d : Disk) (url : String) :
    Except Error (Relational.Dialect × Relational.Database) × Disk :=
  match Relational.Dialect.ofUrl url with
  | .error e => (.error e, d)
  | .ok .mysql =>
    let reason : Registry.Breakdown := match Url.parse url with
      | .ok _ => .unreachable
      | .error _ => .badUrl
    (.error (.backend reason), d)
  | .ok .sqlite =>
    match Relational.Location.ofUrl (Relational.Dialect.sqlite.connectUrl url) with
    | .error e => (.error e, d)
    | .ok location =>
      let (opened, d) := d.openRelational location
      (opened.map fun database => (.sqlite, database), d)

end Disk

end Depot
