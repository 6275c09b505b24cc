import Depot.Registry.Error
import Depot.Url.Query

/-!
# Database addresses

The URL of a relational database says which engine keeps it and, for one kept in a file, which file
that is and how to open it.

Headlines
* `Dialect.ofUrl` tells the engine, `Dialect.connectUrl` completes the URL, `Location.ofUrl` reads
  what it says about the file, and `redact` hides the password in it.
-/

namespace Depot.Relational

open Registry (Error)

/-- A database engine. -/
inductive Dialect where
  /-- Databases in files. -/
  | sqlite
  /-- Databases behind a server. -/
  | mysql
deriving DecidableEq, Repr

namespace Dialect

/-- The name of an engine. -/
def name : Dialect → String
  | .sqlite => "Sqlite"
  | .mysql => "MySql"

/-- The engine with a scheme. -/
def ofScheme? : String → Option Dialect
  | "sqlite" => some .sqlite
  | "mysql" | "mariadb" => some .mysql
  | _ => none

/-- The text before the first colon, or all of it. -/
def schemeOf (url : String) : String :=
  String.ofList (((Text.cut ':' url.toList).map Prod.fst).getD url.toList)

/-- The engine that a URL names. -/
def ofUrl (url : String) : Except Error Dialect :=
  match ofScheme? (schemeOf url) with
  | some d => .ok d
  | none => .error (.invalidRequest (.databaseUrl url))

/-- The start of an insertion that leaves out rows whose unique key is taken. -/
def insertUnlessTaken : Dialect → String
  | .sqlite => "INSERT OR IGNORE"
  | .mysql => "INSERT IGNORE"

/-- The parameter that names the way to open a file. -/
def modeParameter : String := "mode="

/-- The URL to connect with: a file is created on first use unless the URL says how to open it. -/
def connectUrl (d : Dialect) (url : String) : String :=
  if d = .sqlite ∧ !Text.occurs modeParameter.toList url.toList then
    url ++ (if url.toList.contains '?' then "&" else "?") ++ modeParameter ++ "rwc"
  else url

end Dialect

/-- A URL with its password hidden: what stands between the first colon and the first at sign after
the scheme. -/
def redact (url : String) : String :=
  let hidden := do
    let (scheme, rest) ← Text.cutText "://".toList url.toList
    let (userinfo, host) ← Text.cut '@' rest
    let (user, _) ← Text.cut ':' userinfo
    return String.ofList scheme ++ "://" ++ String.ofList user ++ ":***@" ++ String.ofList host
  hidden.getD url

/-- Where a database is kept and how it is opened. -/
structure Location where
  /-- The file; none for a database that lasts as long as its connections. -/
  file : Option String
  /-- Whether a file that is missing is made. -/
  create : Bool := false
  /-- Whether nothing is written. -/
  readOnly : Bool := false
  /-- The way to reach files, if it is not the usual one. -/
  fileSystem : Option String := none
deriving DecidableEq, Repr

/-- The error for a URL that makes no sense. -/
def badUrl : Error := .backend .badUrl

/-- The error for a database that does not open. -/
def refused : Error := .backend .refused

/-- A text without a start, however often it is repeated. -/
def dropStarts (start : List Char) : Nat → List Char → List Char
  | 0, l => l
  | n + 1, l => if start.isPrefixOf l then dropStarts start n (l.drop start.length) else l

/-- What follows the scheme. -/
def afterScheme (text : List Char) : List Char :=
  let rest := dropStarts "sqlite://".toList text.length text
  dropStarts "sqlite:".toList rest.length rest

namespace Location

/-- The name that stands for a database in memory. -/
def memoryName : String := ":memory:"

/-- The location that a name stands for. A name without characters is that of a temporary file. -/
def ofName (name : String) : Except Error Location :=
  if name = memoryName then .ok { file := none }
  else
    match Bytes.ofUtf8? (Percent.decode (Bytes.utf8 name)) with
    | none => .error badUrl
    | some file => .ok { file := if file.isEmpty then none else some file }

/-- The location after a parameter. -/
def withParameter (l : Location) : String × String → Except Error Location
  | ("mode", "ro") => .ok { l with readOnly := true }
  | ("mode", "rw") => .ok l
  | ("mode", "rwc") => .ok { l with create := true }
  | ("mode", "memory") => .ok { l with file := none }
  | ("cache", "private") | ("cache", "shared") => .ok l
  | ("immutable", "true") | ("immutable", "1") => .ok { l with readOnly := true }
  | ("immutable", "false") | ("immutable", "0") => .ok l
  | ("vfs", system) => .ok { l with fileSystem := some system }
  | _ => .error badUrl

/-- The known ways to reach files. -/
def fileSystems : List String := ["unix", "unix-none", "unix-dotfile", "unix-excl"]

/-- Refuses a location that no file can have. -/
def check (l : Location) : Except Error Unit :=
  if l.file.any fun file => file.toList.contains '\x00' then .error (.backend .unreachable)
  else if l.fileSystem.all fileSystems.contains then .ok ()
  else .error refused

/-- The location of a completed URL. -/
def ofUrl (url : String) : Except Error Location :=
  match Url.parse url with
  | .error _ => .error badUrl
  | .ok parsed => do
    let rest := afterScheme parsed.render.toList
    let (name, query) := (Text.cut '?' rest).getD (rest, [])
    let named ← ofName (String.ofList name)
    let location ← (Url.formPairs (String.ofList query)).foldlM withParameter named
    location.check
    return location

end Location

end Depot.Relational
