import Depot.Bytes.Hex

/-!
# Percent encoding

A byte outside the set that a place in a URL allows is written as `%` and two upper-case digits.
-/

namespace Depot.Percent

/-- The letters, digits and marks that need no encoding anywhere. -/
def isUnreserved (c : Char) : Bool :=
  c.isAlphanum || c == '-' || c == '_' || c == '.' || c == '~'

/-- The escape of a byte. -/
def escape (b : UInt8) : List Char := ['%', Hex.upperDigit (b / 16), Hex.upperDigit (b % 16)]

/-- A byte as it is if it is ASCII and allowed, else its escape. -/
def byte (allowed : Char → Bool) (b : UInt8) : List Char :=
  if b < 0x80 && allowed (Char.ofNat b.toNat) then [Char.ofNat b.toNat] else escape b

/-- The bytes of a text, all but the allowed characters escaped. -/
def encodeWith (allowed : Char → Bool) (s : String) : String :=
  String.ofList ((Bytes.utf8 s).flatMap (byte allowed))

/-- A text with everything but unreserved characters escaped. -/
def encode (s : String) : String := encodeWith isUnreserved s

/-- The bytes of a text whose escapes are resolved. A percent sign without two digits after it
stands for itself. -/
def decode : Bytes → Bytes
  | [] => []
  | 0x25 :: h :: l :: rest =>
    match Hex.value? (Char.ofNat h.toNat), Hex.value? (Char.ofNat l.toNat) with
    | some h, some l => (16 * h + l) :: decode rest
    | _, _ => 0x25 :: decode (h :: l :: rest)
  | b :: rest => b :: decode rest

end Depot.Percent
