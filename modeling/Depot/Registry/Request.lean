import Depot.Registry.Error
import Depot.Registry.Object

/-!
# Requests

What a caller says about the object it asks for, and the links under which the object is offered.
-/

namespace Depot.Registry

/-- A request about an object. -/
structure Request where
  /-- The digest of the object. -/
  oid : String := ""
  /-- Its size. -/
  size : Int := 0
  /-- The owner of the repository. -/
  owner : String := ""
  /-- The repository; empty for none. -/
  repo : String := ""
  /-- The authorization header. -/
  authorization : String := ""
deriving DecidableEq, Repr

namespace Request

/-- The projects that the object is registered with. -/
def projects (r : Request) : List String := if r.repo.isEmpty then [] else [r.repo]

/-- The record that a first registration makes. -/
def pendingObject (r : Request) : Object := ⟨r.oid, r.size, r.projects, false⟩

/-- Refuses a request that can name no object; the id is looked at before the size. -/
def validate (r : Request) : Except Error Unit :=
  if !isDigest r.oid then .error (.invalidRequest (.oid r.oid))
  else if r.size < 0 then .error (.invalidRequest (.size r.size))
  else .ok ()

/-- The common start of the links, without slashes at the end of the base. -/
def linkBase (r : Request) (base : String) : String :=
  Text.trimEnd '/' base ++ "/" ++ r.owner ++ "/" ++ r.repo

/-- The link to the content of the object. -/
def objectLink (r : Request) (base : String) : String :=
  r.linkBase base ++ "/objects/" ++ r.oid

/-- The link that confirms an upload. -/
def verifyLink (r : Request) (base : String) : String := r.linkBase base ++ "/verify"

end Request

/-- Refuses a blank name. -/
def requireName (kind name : String) : Except Error Unit :=
  if (Text.trim name).isEmpty then .error (.invalidRequest (.blankName kind)) else .ok ()

end Depot.Registry
