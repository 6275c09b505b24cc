import Depot.Bucket.Acl
import Depot.Bucket.Exchange
import Depot.Content.Body
import Depot.Content.Key
import Depot.Program

/-!
# Content in a bucket

Each object's content is an object of a bucket under its storage key. An upload is checked before
anything is sent, and asked for afterwards: one that arrived in another size is removed.
-/

namespace Depot.Bucket

open Content (Body Digest Step)

/-- What a request replies: a response, or none. -/
@[reducible] def Reply (_ : Request) : Type := Option Response

/-- A computation over requests that may fail. -/
abbrev Action (α : Type) := ExceptT Content.Error (Program Request Reply) α

/-- Which bucket of which service, and who asks. -/
structure Config where
  /-- The address of the service; without one it follows from the region. -/
  endpoint : Option String
  /-- The region. -/
  region : String
  /-- The bucket. -/
  bucket : String
  /-- The public name of the key. -/
  accessKeyId : String
  /-- The secret of the key. -/
  secretAccessKey : String
  /-- The access level of the bucket and of all that is stored. -/
  acl : Acl
deriving DecidableEq, Repr

/-- The address of the service, without slashes at its end. -/
def Config.endpointUrl (c : Config) : String :=
  match c.endpoint with
  | some endpoint => Text.trimEnd '/' endpoint
  | none => s!"https://s3.{c.region}.amazonaws.com"

/-- A bucket and the time at which its requests are signed. -/
structure Store where
  /-- Which bucket, and who asks. -/
  config : Config
  /-- The time of signatures. -/
  now : Calendar
deriving DecidableEq, Repr

/-- The error for a breakdown. -/
def broken (b : Content.Breakdown) : Content.Error := .backend b

namespace Store

variable (s : Store)

/-- The address of the bucket. -/
def bucketUrl : String := s.config.endpointUrl ++ "/" ++ s.config.bucket

/-- The address of an object. -/
def objectUrl (oid : String) : Except Content.Error String := do
  Content.checkOid oid
  return s.bucketUrl ++ "/" ++ Content.storageKey oid

/-- Who signs. -/
def signer : Signer := ⟨s.config.accessKeyId, s.config.secretAccessKey, s.config.region⟩

/-- The type that stored bytes are given. -/
def contentType : String := "binary/octet-stream"

/-- A signed request. The type of a body is not signed. -/
def request (method : Method) (url : Url) (body : Option Bytes) (withAcl : Bool) : Request :=
  let payloadHash := Sha256.hexDigest (body.getD [])
  let headers := ("x-amz-content-sha256", payloadHash) ::
    if withAcl then [("x-amz-acl", s.config.acl.name)] else []
  let signed := s.signer.sign method.name url headers payloadHash s.now
  ⟨method, url, if body.isSome then signed ++ [("content-type", contentType)] else signed, body⟩

/-- Sends a request, which has to be answered. -/
def send (method : Method) (address : String) (body : Option Bytes) (withAcl : Bool) :
    Action Response := do
  let url ← (Url.parse address).mapError fun e => broken (.badUrl e.message)
  let request := s.request method url body withAcl
  if !request.canBeSent then throw (broken .unbuildable)
  match ← (Program.perform request : Program Request Reply (Option Response)) with
  | some response => return response
  | none => throw (broken .unanswered)

/-- The error for a response that is no success. -/
def refusal (step : Step) (r : Response) : Content.Error :=
  broken (.refused step (statusText r.status) r.text)

/-- What a bucket outside the first region says about where it is to be. -/
def placement (region : String) : Option Bytes :=
  if region = "us-east-1" then none
  else some <| Bytes.utf8 <|
    "<CreateBucketConfiguration xmlns=\"http://s3.amazonaws.com/doc/2006-03-01/\">" ++
      s!"<LocationConstraint>{region}</LocationConstraint>" ++ "</CreateBucketConfiguration>"

/-- Makes the bucket unless it is there, and tells whether it was made. -/
def ensureBucket : Action Bool := do
  let found ← s.send .head s.bucketUrl none false
  if isSuccess found.status then return false
  if found.status ≠ 404 then throw (refusal .bucketLookup found)
  let made ← s.send .put s.bucketUrl (placement s.config.region) true
  if !isSuccess made.status then throw (refusal .bucketCreation made)
  return true

/-- Opens a bucket: its address has to be a URL. The answer tells whether the bucket was made. -/
def openBucket : Action Bool := do
  match Url.parse s.config.endpointUrl with
  | .ok _ => s.ensureBucket
  | .error e => throw (broken (.badEndpoint s.config.endpointUrl e.message))

/-- The size of an object, if it is there. -/
def storedSize (oid : String) : Action (Option Int) := do
  let found ← s.send .head (← s.objectUrl oid) none false
  if found.status = 404 then return none
  if !isSuccess found.status then throw (refusal .head found)
  match found.length.bind Text.int64? with
  | some size => return some size
  | none => throw (broken .noLength)

/-- Removes an object, if it is there. -/
def delete (oid : String) : Action Unit := do
  let r ← s.send .delete (← s.objectUrl oid) none false
  if !isSuccess r.status ∧ r.status ≠ 404 then throw (refusal .delete r)

/-- The text of a body that breaks off. -/
def brokenBody : String := "error decoding response body"

/-- The content of an object. -/
def get (oid : String) : Action Bytes := do
  let r ← s.send .get (← s.objectUrl oid) none false
  if r.status = 404 then throw (.notFound oid)
  if !isSuccess r.status then throw (refusal .download r)
  match r.body with
  | some bytes => return bytes
  | none => throw (.io (.broken brokenBody))

/-- The bytes of an upload, once they prove to be the object's content. -/
def checkedBytes (o : Registry.Object) (body : Body) : Except Content.Error Bytes :=
  match body.copy with
  | (.error text, _) => .error (.io (.broken text))
  | (.ok digest, bytes) => (digest.check o).map fun _ => bytes

/-- Stores the content of an object. -/
def put (o : Registry.Object) (body : Body) : Action Unit := do
  let address ← s.objectUrl o.oid
  let r ← s.send .put address (some (← checkedBytes o body)) true
  if !isSuccess r.status then throw (refusal .upload r)
  match ← s.storedSize o.oid with
  | none => throw (broken (.lost o.oid))
  | some size =>
    if size ≠ o.size then
      s.delete o.oid
      throw (.sizeMismatch o.size size)

/-- Whether there is an object. A failure to find out counts as no. -/
def exists? (oid : String) : Program Request Reply Bool :=
  match Content.checkOid oid with
  | .error _ => .done false
  | .ok () => (s.storedSize oid).run.bind fun
    | .ok found => .done found.isSome
    | .error _ => .done false

/-- Compares the content of an object with it. -/
def verify (o : Registry.Object) : Action Unit := do
  (Digest.of (← s.get o.oid)).check o

end Store

end Depot.Bucket
