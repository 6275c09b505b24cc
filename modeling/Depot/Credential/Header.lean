import Depot.Bytes.Base64
import Depot.Registry.Error
import Depot.Text.Case
import Depot.Text.Cut

/-!
# Basic credentials

The authorization header that carries a user's name and password: the scheme `Basic`, a space, and
the base-64 form of name, colon and password.
-/

namespace Depot.Credential

open Registry (Refusal)

/-- A user's name and password as they come with a request. -/
structure Login where
  /-- The name, without a colon. -/
  user : String
  /-- The password. -/
  password : String
deriving DecidableEq, Repr

/-- The bytes of a padded base-64 text in either alphabet. -/
def decodeEither? (digits : String) : Option Bytes :=
  (Base64.decodePadded? .standard digits).or (Base64.decodePadded? .urlSafe digits)

/-- A name and a password around the first colon. -/
def splitLogin? (text : String) : Option Login :=
  (Text.cut ':' text.toList).map fun (user, password) =>
    ⟨String.ofList user, String.ofList password⟩

/-- The credentials after the scheme. -/
def loginOf? (digits : String) : Option Login :=
  ((decodeEither? (Text.trim digits)).bind Bytes.ofUtf8?).bind splitLogin?

/-- Reads an authorization header. White space around it and around the digits does not count, and
neither does the case of the scheme. -/
def parseBasic (header : String) : Except Refusal Login :=
  let header := Text.trim header
  if header.isEmpty then .error .missing
  else
    match Text.cut ' ' header.toList with
    | none => .error .malformed
    | some (scheme, digits) =>
      if Text.sameLetters (String.ofList scheme) "basic" then
        match loginOf? (String.ofList digits) with
        | some login => .ok login
        | none => .error .malformed
      else .error .malformed

/-- The header that carries credentials. -/
def Login.header (l : Login) (a : Base64.Alphabet) : String :=
  "Basic " ++ Base64.encodePadded a (Bytes.utf8 (l.user ++ ":" ++ l.password))

end Depot.Credential
