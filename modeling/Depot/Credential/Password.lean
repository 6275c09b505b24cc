import Depot.Bytes.Base64
import Depot.Digest.Pbkdf2
import Depot.Text.Cut
import Depot.Text.Decimal

/-!
# Password hashes

A stored hash is `$pbkdf2-sha256$rounds$salt$key`, with the salt and the derived key in base 64
without padding. Checking derives a key of the stored one's length and compares.
-/

namespace Depot.Credential.Password

/-- The name of the key derivation. -/
def scheme : String := "pbkdf2-sha256"

/-- The length of the derived key. -/
def keyLength : Nat := 32

/-- The rounds of a new hash. -/
def defaultRounds : Nat := 100000

/-- The text of a hash. -/
def render (rounds : Nat) (salt key : Bytes) : String :=
  s!"${scheme}${rounds}$" ++ Base64.encode .standard salt ++ "$" ++ Base64.encode .standard key

/-- Hashes a password. -/
def hashWith (rounds : Nat) (salt : Bytes) (password : String) : String :=
  render rounds salt (Pbkdf2.derive (Bytes.utf8 password) salt rounds keyLength)

/-- Hashes a password for a new account. -/
def hash (salt : Bytes) (password : String) : String := hashWith defaultRounds salt password

/-- What a stored hash says. -/
structure Stored where
  /-- The rounds, at least one. -/
  rounds : Nat
  /-- The salt. -/
  salt : Bytes
  /-- The derived key. -/
  key : Bytes
deriving DecidableEq, Repr

/-- The number of rounds in a hash: it fits 32 bits and is not zero. -/
def rounds? (s : String) : Option Nat := (Text.word32? s).filter (0 < ·)

/-- Reads a stored hash. -/
def Stored.parse? (encoded : String) : Option Stored :=
  match (Text.pieces '$' encoded.toList).map String.ofList with
  | ["", name, rounds, salt, key] =>
    if name = scheme then do
      some ⟨← rounds? rounds, ← Base64.decode? .standard salt, ← Base64.decode? .standard key⟩
    else none
  | _ => none

/-- Whether a password has a stored hash. A hash without a key belongs to no password. -/
def Stored.matches (s : Stored) (password : String) : Bool :=
  !s.key.isEmpty &&
    Pbkdf2.derive (Bytes.utf8 password) s.salt s.rounds s.key.length == s.key

/-- Whether a text is the hash of a password. -/
def verify (encoded password : String) : Bool :=
  match Stored.parse? encoded with
  | some stored => stored.matches password
  | none => false

end Depot.Credential.Password
