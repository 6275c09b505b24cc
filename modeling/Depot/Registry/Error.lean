import Depot.Text.Quoted

/-!
# What a registry call can fail with

Each constructor is a cause; `message` is the one place that words it.
-/

namespace Depot.Registry

/-- Why a request was not let through. -/
inductive Refusal where
  /-- No credentials came with the request. -/
  | missing
  /-- The credentials could not be read. -/
  | malformed
  /-- The credentials are wrong. -/
  | rejected
  /-- The credentials could not be checked. -/
  | unavailable
deriving DecidableEq, Repr

/-- What a look-up did not find. -/
inductive Missing where
  /-- No record of an object. -/
  | object (oid : String)
  /-- A record that is not committed yet. -/
  | pending (oid : String)
  /-- No such project. -/
  | project (name : String)
  /-- No such user. -/
  | user (name : String)
deriving DecidableEq, Repr

/-- What is wrong with a request. -/
inductive Fault where
  /-- The object id is not 64 lower-case hexadecimal digits. -/
  | oid (got : String)
  /-- The size is below zero. -/
  | size (got : Int)
  /-- The name of something is blank. -/
  | blankName (kind : String)
  /-- The name of a keyspace is too long or has other characters than letters, digits and
  underscores. -/
  | keyspace (name : String)
  /-- The scheme of a database URL is unknown. -/
  | databaseUrl (url : String)
  /-- Something else. -/
  | other (text : String)
deriving DecidableEq, Repr

/-- What went wrong behind the registry. -/
inductive Breakdown where
  /-- The store has been closed. -/
  | closed
  /-- The connections of the store have been closed. -/
  | poolClosed
  /-- A stored row cannot be read. -/
  | undecodable
  /-- A table of the database file has another type. -/
  | wrongTable
  /-- The database file cannot be opened. -/
  | unreadableFile
  /-- The database refused. -/
  | refused
  /-- The database URL cannot be used. -/
  | badUrl
  /-- The database server cannot be reached. -/
  | unreachable
  /-- No contact point of the cluster can be reached. -/
  | noContact
  /-- Something else, by the text it came with. -/
  | reported (text : String)
deriving DecidableEq, Repr

/-- A failed registry call. -/
inductive Error where
  /-- The caller may not make the call. -/
  | auth (why : Refusal)
  /-- Something was not found. -/
  | notFound (what : Missing)
  /-- The registry does not do this in its present mode. -/
  | unsupported (text : String)
  /-- The request makes no sense. -/
  | invalidRequest (fault : Fault)
  /-- The registry itself failed. -/
  | backend (breakdown : Breakdown)
deriving DecidableEq, Repr

/-- Wording of a refusal. -/
def Refusal.message : Refusal → String
  | .missing => "no credentials supplied"
  | .malformed => "credentials are not valid HTTP Basic"
  | .rejected => "credentials rejected"
  | .unavailable => "credential service unavailable"

/-- Wording of a failed look-up. -/
def Missing.message : Missing → String
  | .object oid => s!"Object not found: {oid}"
  | .pending oid => s!"Object not committed: {oid}"
  | .project name => s!"Project not found: {name}"
  | .user name => s!"Unable to find user: {name}"

/-- Wording of a fault. -/
def Fault.message : Fault → String
  | .oid got => "oid must be 64 lowercase hex characters, got " ++ Text.quoted got
  | .size got => s!"size must not be negative, got {got}"
  | .blankName kind => s!"{kind} name must not be empty"
  | .keyspace name => "invalid keyspace name " ++ Text.quoted name
  | .databaseUrl url => "unsupported sql url " ++ Text.quoted url ++ ", expected sqlite: or mysql:"
  | .other text => text

/-- Wording of a breakdown. -/
def Breakdown.message : Breakdown → String
  | .closed => "meta store is closed"
  | .poolClosed => "attempted to acquire a connection on a closed pool"
  | .undecodable => "Deserialization error:"
  | .wrongTable => "Table error:"
  | .unreadableFile => "Database error:"
  | .refused => "error returned from database:"
  | .badUrl => "error with configuration:"
  | .unreachable => "error communicating with database:"
  | .noContact => "IO Error:"
  | .reported text => text

/-- Wording of an error. -/
def Error.message : Error → String
  | .auth why => "Not authenticated: " ++ why.message
  | .notFound what => what.message
  | .unsupported text => "Not supported by this backend: " ++ text
  | .invalidRequest fault => "Invalid request: " ++ fault.message
  | .backend breakdown => "Backend error: " ++ breakdown.message

/-- Whether the caller was not let through. -/
def Error.isAuth : Error → Bool
  | .auth _ => true
  | _ => false

/-- Whether something was not found. -/
def Error.isNotFound : Error → Bool
  | .notFound _ => true
  | _ => false

/-- Whether the call is not supported. -/
def Error.isUnsupported : Error → Bool
  | .unsupported _ => true
  | _ => false

/-- The answer to calls on a store that has been closed. -/
def Error.closed : Error := .backend .closed

end Depot.Registry
