import Depot.Text.Case

/-!
# Access levels

The canned access-control levels of a bucket and its objects.
-/

namespace Depot.Bucket

/-- An access level. -/
inductive Acl where
  /-- Only the owner. -/
  | private_
  /-- Everyone may read. -/
  | publicRead
  /-- Everyone may read and write. -/
  | publicReadWrite
  /-- Everyone with an account may read. -/
  | authenticatedRead
  /-- The owner of the bucket may read. -/
  | bucketOwnerRead
  /-- The owner of the bucket may do everything. -/
  | bucketOwnerFullControl
deriving DecidableEq, Repr

namespace Acl

/-- The name of an access level. -/
def name : Acl → String
  | .private_ => "private"
  | .publicRead => "public-read"
  | .publicReadWrite => "public-read-write"
  | .authenticatedRead => "authenticated-read"
  | .bucketOwnerRead => "bucket-owner-read"
  | .bucketOwnerFullControl => "bucket-owner-full-control"

/-- All access levels. -/
def all : List Acl :=
  [.private_, .publicRead, .publicReadWrite, .authenticatedRead, .bucketOwnerRead,
    .bucketOwnerFullControl]

/-- A name as it is compared: trimmed, in lower case. -/
def normal (text : String) : String := Text.lower (Text.trim text)

/-- The access level of a name. -/
def ofName? (text : String) : Option Acl := all.find? fun a => a.name == normal text

/-- The access level of a setting. One that names none is private. -/
def parse (text : String) : Acl := (ofName? text).getD .private_

/-- What a setting says if it names no access level although it is not blank. -/
def unrecognized? (text : String) : Option String :=
  if (ofName? text).isSome || (normal text).isEmpty then none else some (normal text)

end Acl

end Depot.Bucket
