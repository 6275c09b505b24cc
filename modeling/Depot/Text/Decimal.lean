/-!
# Decimal numbers in text

A whole number is written with ASCII digits, of which leading ones may be zero, after an optional
sign, and has to fit the range that its reader asks for.
-/

namespace Depot.Text

/-- The value of an ASCII digit. -/
def digit? (c : Char) : Option Nat :=
  if '0' ≤ c ∧ c ≤ '9' then some (c.toNat - '0'.toNat) else none

/-- The value of a text that holds only digits, with `acc` for the digits already read. -/
def digitsFrom? (acc : Nat) : List Char → Option Nat
  | [] => some acc
  | c :: rest => (digit? c).bind fun d => digitsFrom? (10 * acc + d) rest

/-- The value of one or more digits. -/
def digits? : List Char → Option Nat
  | [] => none
  | l => digitsFrom? 0 l

/-- A number from zero to `max`; a plus sign may precede it. -/
def natUpTo? (max : Nat) (s : String) : Option Nat :=
  let unsigned := match s.toList with
    | '+' :: rest => rest
    | l => l
  (digits? unsigned).filter (· ≤ max)

/-- A number that fits 32 bits. -/
def word32? (s : String) : Option Nat := natUpTo? 0xffffffff s

/-- Whether a number fits 64 bits with a sign. -/
def fitsInt64 (n : Int) : Bool := -0x8000000000000000 ≤ n && n < 0x8000000000000000

/-- A number that fits 64 bits with a sign; either sign may precede it. -/
def int64? (s : String) : Option Int :=
  let value := match s.toList with
    | '+' :: rest => (digits? rest).map Int.ofNat
    | '-' :: rest => (digits? rest).map fun n => -Int.ofNat n
    | l => (digits? l).map Int.ofNat
  value.filter fitsInt64

end Depot.Text
