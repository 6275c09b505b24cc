import Depot.Bucket.Store
import Depot.Table

/-!
# A bucket service

Buckets with their access levels and objects by key, kept in memory behind an address. Answers that
go wrong are planned ahead, and uploads may lose bytes, so that what a store does about either can
be seen.

Headlines
* `Service.step` says what each request replies and what it leaves.
-/

namespace Depot.Bucket

/-- An answer that goes wrong. -/
structure Fault where
  /-- The method of the request that it answers. -/
  method : Method
  /-- How many requests of that method are served before. -/
  skip : Nat := 0
  /-- The answer; none if the connection is closed instead. -/
  answer : Option Message
deriving DecidableEq, Repr

/-- A service. -/
structure Service where
  /-- Host and port it is reached at; none if nobody listens. -/
  authority : Option String := none
  /-- The path that its own paths follow. -/
  base : String := ""
  /-- The buckets with the access levels they were made with. -/
  buckets : Table String String := ∅
  /-- The objects by key. -/
  objects : Table String Bytes := ∅
  /-- How many bytes each upload loses at its end. -/
  truncate : Nat := 0
  /-- The answers that go wrong. -/
  faults : List Fault := []
  /-- The requests received so far, the latest first. -/
  received : List Request := []
deriving DecidableEq

namespace Service

/-- Bucket and key of a path: the parts around its first slash, not counting those before them. A
path without a key is that of a bucket. -/
def split (s : Service) (path : String) : String × String :=
  let base := Text.stripEnd (· == '/') s.base.toList
  let chars := path.toList
  let chars := if base.isPrefixOf chars then chars.drop base.length else chars
  let chars := chars.dropWhile (· == '/')
  let (bucket, key) := (Text.cut '/' chars).getD (chars, [])
  (String.ofList bucket, String.ofList key)

/-- An answer with a body, which a request for headers only does not get. -/
def message (method : Method) (status : Nat) (body : Bytes) : Message :=
  ⟨status, some (toString body.length), if method = .head then [] else body⟩

/-- The answer to a request for a bucket, and the service after it. -/
def serveBucket (s : Service) (r : Request) (bucket : String) : Message × Service :=
  match r.method with
  | .head => (message .head (if s.buckets.contains bucket then 200 else 404) [], s)
  | .put =>
    let acl := (r.header? "x-amz-acl").getD ""
    (message .put 200 [], { s with buckets := s.buckets.insert bucket acl })
  | .get => (message .get 405 [], s)
  | .delete => (message .delete 405 [], s)

/-- The answer to a request for an object, and the service after it. -/
def serveObject (s : Service) (r : Request) (key : String) : Message × Service :=
  match r.method with
  | .put =>
    let body := r.body.getD []
    let kept := body.take (body.length - s.truncate)
    (message .put 200 [], { s with objects := s.objects.insert key kept })
  | .delete => (message .delete 204 [], { s with objects := s.objects.erase key })
  | .head | .get =>
    match s.objects.get? key with
    | some bytes => (message r.method 200 bytes, s)
    | none => (message r.method 404 [], s)

/-- The answer to a request, and the service after it. -/
def serve (s : Service) (r : Request) : Message × Service :=
  let (bucket, key) := s.split r.url.target
  if key.isEmpty then s.serveBucket r bucket
  else if s.buckets.contains bucket then s.serveObject r key
  else (message r.method 404 [], s)

/-- The planned answer to a request, and the plans after it. The first plan for the method counts:
it is used up, or waits for one request less. -/
def takeFault (method : Method) : List Fault → Option (Option Message) × List Fault
  | [] => (none, [])
  | f :: rest =>
    if f.method = method then
      if f.skip = 0 then (some f.answer, rest)
      else (none, { f with skip := f.skip - 1 } :: rest)
    else
      let (answer, rest) := takeFault method rest
      (answer, f :: rest)

/-- The message that answers a request, if there is one, and the service after it. -/
def answer (s : Service) (r : Request) : Option Message × Service :=
  let (planned, faults) := takeFault r.method s.faults
  let s := { s with faults := faults, received := r :: s.received }
  match planned with
  | some m => (m, s)
  | none =>
    let (m, s) := s.serve r
    (some m, s)

/-- Whether a request reaches the service. -/
def isReachedBy (s : Service) (url : Url) : Bool :=
  url.scheme == "http" && s.authority == some url.hostHeader

/-- What a request replies, and the service after it. -/
def step (s : Service) (r : Request) : Reply r × Service :=
  if s.isReachedBy r.url then
    let (m, s) := s.answer r
    (m.bind (receive r.method), s)
  else (none, s)

end Service

end Depot.Bucket
