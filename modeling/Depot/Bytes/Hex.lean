import Depot.Bytes.Basic

/-!
# Hexadecimal text

Two lower-case digits a byte.
-/

namespace Depot.Hex

/-- The lower-case digit of a number below sixteen. -/
def digit (n : UInt8) : Char :=
  Char.ofNat (if n < 10 then '0'.toNat + n.toNat else 'a'.toNat + (n.toNat - 10))

/-- The upper-case digit of a number below sixteen. -/
def upperDigit (n : UInt8) : Char :=
  Char.ofNat (if n < 10 then '0'.toNat + n.toNat else 'A'.toNat + (n.toNat - 10))

/-- The value of a digit in either case. -/
def value? (c : Char) : Option UInt8 :=
  if '0' ≤ c ∧ c ≤ '9' then some (c.toNat - '0'.toNat).toUInt8
  else if 'a' ≤ c ∧ c ≤ 'f' then some (c.toNat - 'a'.toNat + 10).toUInt8
  else if 'A' ≤ c ∧ c ≤ 'F' then some (c.toNat - 'A'.toNat + 10).toUInt8
  else none

/-- The two digits of a byte. -/
def byte (b : UInt8) : List Char := [digit (b / 16), digit (b % 16)]

/-- Bytes as lower-case digits. -/
def encode (b : Bytes) : String := String.ofList (b.flatMap byte)

/-- The bytes of a list of digits, in reverse and before those already read. -/
def decodeOnto (acc : Bytes) : List Char → Option Bytes
  | [] => some acc
  | [_] => none
  | h :: l :: rest =>
    match value? h, value? l with
    | some h, some l => decodeOnto ((16 * h + l) :: acc) rest
    | _, _ => none

/-- The bytes of a text of digits. -/
def decode? (s : String) : Option Bytes := (decodeOnto [] s.toList).map List.reverse

end Depot.Hex
