import Depot.Content.Error

/-!
# Storage keys

The key under which an object's content is kept: its id, cut after the second and the fourth
character so that no directory grows too large.
-/

namespace Depot.Content

/-- Whether a character is an ASCII letter or digit. -/
def isPlain (c : Char) : Bool := c.isAlphanum

/-- Refuses an id that is no storage key: it has to consist of ASCII letters and digits, at least
one. -/
def checkOid (oid : String) : Except Error Unit :=
  if !oid.isEmpty && oid.toList.all isPlain then .ok () else .error (.invalidOid oid)

/-- The parts of a key. An id shorter than five bytes or with other than ASCII characters is not
cut. -/
def keyParts (oid : String) : List String :=
  let chars := oid.toList
  if oid.utf8ByteSize < 5 || !chars.all (·.val < 128) then [oid]
  else [String.ofList (chars.take 2), String.ofList ((chars.drop 2).take 2),
    String.ofList (chars.drop 4)]

/-- The key of an object. -/
def storageKey (oid : String) : String := String.intercalate "/" (keyParts oid)

end Depot.Content
