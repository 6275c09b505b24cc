import Depot.Bytes.Basic

/-!
# Base 64

Three bytes in four digits, in one of two alphabets, with or without the padding that fills the
last group. Reading is canonical: it accepts the written form of a byte string and nothing else, so
the bits that the last digit does not need are zero.

Headlines
* `encode`, `decode?` without padding, `encodePadded`, `decodePadded?` with it.
-/

namespace Depot.Base64

/-- The two alphabets: they differ in the last two digits. -/
inductive Alphabet where
  /-- Digits 62 and 63 are `+` and `/`. -/
  | standard
  /-- Digits 62 and 63 are `-` and `_`. -/
  | urlSafe
deriving DecidableEq, Repr

/-- The last two digits. -/
def Alphabet.last : Alphabet → Char × Char
  | .standard => ('+', '/')
  | .urlSafe => ('-', '_')

/-- The digit for a number below 64. -/
def Alphabet.digit (a : Alphabet) (n : UInt8) : Char :=
  if n < 26 then Char.ofNat ('A'.toNat + n.toNat)
  else if n < 52 then Char.ofNat ('a'.toNat + (n.toNat - 26))
  else if n < 62 then Char.ofNat ('0'.toNat + (n.toNat - 52))
  else if n = 62 then a.last.1
  else a.last.2

/-- The number of a digit. -/
def Alphabet.value? (a : Alphabet) (c : Char) : Option UInt8 :=
  if 'A' ≤ c ∧ c ≤ 'Z' then some (c.toNat - 'A'.toNat).toUInt8
  else if 'a' ≤ c ∧ c ≤ 'z' then some (c.toNat - 'a'.toNat + 26).toUInt8
  else if '0' ≤ c ∧ c ≤ '9' then some (c.toNat - '0'.toNat + 52).toUInt8
  else if c = a.last.1 then some 62
  else if c = a.last.2 then some 63
  else none

/-- The first digit of a group. -/
def first (x : UInt8) : UInt8 := x / 4

/-- The second digit, from the end of one byte and the start of the next. -/
def second (x y : UInt8) : UInt8 := x % 4 * 16 + y / 16

/-- The third digit. -/
def third (y z : UInt8) : UInt8 := y % 16 * 4 + z / 64

/-- The fourth digit. -/
def fourth (z : UInt8) : UInt8 := z % 64

/-- Bytes as digits, `fill` characters standing for each digit that the last group lacks. -/
def encodeWith (a : Alphabet) (fill : List Char) : Bytes → List Char
  | [] => []
  | [x] => [a.digit (first x), a.digit (second x 0)] ++ fill ++ fill
  | [x, y] => [a.digit (first x), a.digit (second x y), a.digit (third y 0)] ++ fill
  | x :: y :: z :: rest =>
    a.digit (first x) :: a.digit (second x y) :: a.digit (third y z) :: a.digit (fourth z) ::
      encodeWith a fill rest

/-- Bytes as digits without padding. -/
def encode (a : Alphabet) (b : Bytes) : String := String.ofList (encodeWith a [] b)

/-- Bytes as digits, the last group padded with equals signs. -/
def encodePadded (a : Alphabet) (b : Bytes) : String := String.ofList (encodeWith a ['='] b)

/-- The byte that two digits hold, if the rest of the second one is zero. -/
def lastOne? (a : Alphabet) (c d : Char) : Option Bytes := do
  let p ← a.value? c
  let q ← a.value? d
  if q % 16 = 0 then some [p * 4 + q / 16] else none

/-- The bytes that three digits hold, if the rest of the third one is zero. -/
def lastTwo? (a : Alphabet) (c d e : Char) : Option Bytes := do
  let p ← a.value? c
  let q ← a.value? d
  let r ← a.value? e
  if r % 4 = 0 then some [p * 4 + q / 16, q % 16 * 16 + r / 4] else none

/-- The bytes that four digits hold. -/
def group? (a : Alphabet) (c d e f : Char) : Option Bytes := do
  let p ← a.value? c
  let q ← a.value? d
  let r ← a.value? e
  let s ← a.value? f
  some [p * 4 + q / 16, q % 16 * 16 + r / 4, r % 4 * 64 + s]

/-- The bytes of unpadded digits. -/
def decodeList? (a : Alphabet) : List Char → Option Bytes
  | [] => some []
  | [_] => none
  | [c, d] => lastOne? a c d
  | [c, d, e] => lastTwo? a c d e
  | c :: d :: e :: f :: rest => do
    let head ← group? a c d e f
    let tail ← decodeList? a rest
    some (head ++ tail)

/-- The bytes of padded digits. -/
def decodePaddedList? (a : Alphabet) : List Char → Option Bytes
  | [] => some []
  | [c, d, '=', '='] => lastOne? a c d
  | [c, d, e, '='] => lastTwo? a c d e
  | c :: d :: e :: f :: rest => do
    let head ← group? a c d e f
    let tail ← decodePaddedList? a rest
    some (head ++ tail)
  | _ => none

/-- The bytes of which a text is the unpadded form. -/
def decode? (a : Alphabet) (s : String) : Option Bytes := decodeList? a s.toList

/-- The bytes of which a text is the padded form. -/
def decodePadded? (a : Alphabet) (s : String) : Option Bytes := decodePaddedList? a s.toList

end Depot.Base64
