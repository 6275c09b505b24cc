import Depot.Files.Tree
import Depot.Text.Quoted

/-!
# What a content call can fail with

Each constructor is a cause; `message` is the one place that words it.
-/

namespace Depot.Content

/-- A step of a bucket store. -/
inductive Step where
  /-- Looking for the bucket. -/
  | bucketLookup
  /-- Making the bucket. -/
  | bucketCreation
  /-- Storing an object. -/
  | upload
  /-- Asking for the size of an object. -/
  | head
  /-- Reading an object. -/
  | download
  /-- Removing an object. -/
  | delete
deriving DecidableEq, Repr

/-- Name of a step in messages. -/
def Step.name : Step → String
  | .bucketLookup => "S3 bucket lookup"
  | .bucketCreation => "S3 bucket creation"
  | .upload => "S3 upload"
  | .head => "S3 head"
  | .download => "S3 download"
  | .delete => "S3 delete"

/-- What went wrong behind a bucket store. -/
inductive Breakdown where
  /-- The endpoint is no URL. -/
  | badEndpoint (endpoint reason : String)
  /-- The address of a request is no URL. -/
  | badUrl (reason : String)
  /-- A request cannot be built. -/
  | unbuildable
  /-- A request got no answer. -/
  | unanswered
  /-- A request was answered with a status that is no success. -/
  | refused (step : Step) (status body : String)
  /-- The size of an object was not told. -/
  | noLength
  /-- An object is not there after it was stored. -/
  | lost (oid : String)
  /-- Something else, by the text it came with. -/
  | reported (text : String)
deriving DecidableEq, Repr

/-- A failed content call. -/
inductive Error where
  /-- There is no content of the object. -/
  | notFound (oid : String)
  /-- The id is no storage key. -/
  | invalidOid (oid : String)
  /-- The content has another size than the object. -/
  | sizeMismatch (expected actual : Int)
  /-- The content has another digest than the object. -/
  | hashMismatch (expected actual : String)
  /-- The store does not do this. -/
  | unsupported (text : String)
  /-- Reading or writing failed. -/
  | io (fault : Files.Fault)
  /-- The store itself failed. -/
  | backend (breakdown : Breakdown)
deriving DecidableEq, Repr

/-- Wording of a breakdown. -/
def Breakdown.message : Breakdown → String
  | .badEndpoint endpoint reason => s!"Invalid S3 endpoint {endpoint}: {reason}"
  | .badUrl reason => reason
  | .unbuildable => "builder error"
  | .unanswered => "error sending request"
  | .refused step status body => s!"{step.name} failed ({status}): {body}"
  | .noLength => "S3 head returned no content length"
  | .lost oid => s!"S3 object {oid} missing after upload"
  | .reported text => text

/-- Wording of an error. -/
def Error.message : Error → String
  | .notFound oid => s!"Object not found: {oid}"
  | .invalidOid oid => "Invalid object id: " ++ Text.quoted oid
  | .sizeMismatch expected actual =>
    s!"Content size does not match (expected {expected}, got {actual})"
  | .hashMismatch expected actual =>
    s!"Content hash does not match OID (expected {expected}, got {actual})"
  | .unsupported text => "Not supported by this content store: " ++ text
  | .io fault => "IO error: " ++ fault.message
  | .backend breakdown => "Backend error: " ++ breakdown.message

/-- Whether the content is not that of the object. -/
def Error.isIntegrity : Error → Bool
  | .sizeMismatch _ _ | .hashMismatch _ _ => true
  | _ => false

/-- Whether there is no content. -/
def Error.isNotFound : Error → Bool
  | .notFound _ => true
  | _ => false

end Depot.Content
