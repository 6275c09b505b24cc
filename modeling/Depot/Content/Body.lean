import Depot.Content.Error
import Depot.Digest.Sha256
import Depot.Registry.Object

/-!
# Bodies and their digests

The bytes of an upload arrive in pieces and may break off. They are counted and digested as they
pass, whatever the pieces.

Headlines
* `Body.copy` gives the digest and what was passed on.
-/

namespace Depot.Content

/-- The bytes of an upload in the pieces they arrive in, and why they break off, if they do. -/
structure Body where
  /-- The pieces. -/
  pieces : List Bytes
  /-- Why no more pieces arrive, unless the last one ends the upload. -/
  failure : Option String := none
deriving DecidableEq, Repr

/-- How many bytes pass at a time. -/
def bufferSize : Nat := 64 * 1024

/-- The bytes as they pass: no more than a buffer at a time, and never none. -/
def Body.reads (b : Body) : List Bytes := b.pieces.flatMap (Bytes.runs bufferSize)

/-- The length and the digest of bytes. -/
structure Digest where
  /-- The length. -/
  size : Int
  /-- The digest in lower-case digits. -/
  oid : String
deriving DecidableEq, Repr

/-- The digest of bytes. -/
def Digest.of (b : Bytes) : Digest := ⟨b.length, Sha256.hexDigest b⟩

/-- Compares with an object, the size first. -/
def Digest.check (d : Digest) (o : Registry.Object) : Except Error Unit :=
  if d.size ≠ o.size then .error (.sizeMismatch o.size d.size)
  else if d.oid ≠ o.oid then .error (.hashMismatch o.oid d.oid)
  else .ok ()

/-- The digest of what a context has absorbed. -/
def Digest.ofContext (c : Sha256.Context) : Digest := ⟨c.length, Hex.encode c.finish⟩

/-- The context after some reads. -/
def absorbAll (c : Sha256.Context) (reads : List Bytes) : Sha256.Context :=
  reads.foldl Sha256.Context.update c

/-- Passes a body on: its digest, or why it broke off, and the bytes that passed. -/
def Body.copy (b : Body) : Except String Digest × Bytes :=
  let digest := Digest.ofContext (absorbAll .empty b.reads)
  (match b.failure with
    | some text => .error text
    | none => .ok digest, b.reads.flatten)

/-- The digest of a body whose bytes nobody keeps. -/
def Body.measure (b : Body) : Except String Digest := b.copy.1

end Depot.Content
