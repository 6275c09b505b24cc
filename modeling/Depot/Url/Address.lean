import Depot.Bytes.Hex
import Depot.Text.Cut

/-!
# Addresses

IPv4 addresses in any of their spellings, IPv6 addresses, and the one form in which each is written.
-/

namespace Depot.Url

/-! ### IPv4 -/

/-- The value of digits to a base. -/
def numberOf? (base : Nat) (digits : List Char) : Option Nat :=
  digits.foldlM (fun n c => do
    let d ← Hex.value? c
    if d.toNat < base then some (base * n + d.toNat) else none) 0

/-- A part of an IPv4 address: hexadecimal after `0x`, octal after another leading zero. -/
def ipv4Number? (part : List Char) : Option Nat :=
  match part with
  | [] => none
  | '0' :: 'x' :: digits | '0' :: 'X' :: digits => numberOf? 16 digits
  | '0' :: d :: digits => numberOf? 8 (d :: digits)
  | digits => numberOf? 10 digits

/-- The parts of a name between dots, without an empty one at the end. -/
def dottedParts (name : List Char) : List (List Char) :=
  let parts := Text.pieces '.' name
  if parts.getLast? = some [] then parts.dropLast else parts

/-- Whether the last part of a name is a number, so that the name has to be an address. -/
def endsInNumber (name : List Char) : Bool :=
  match (dottedParts name).getLast? with
  | none => false
  | some last => (!last.isEmpty && last.all Char.isDigit) || (ipv4Number? last).isSome

/-- The number of an IPv4 address: the last part fills what the others leave. -/
def ipv4? (name : List Char) : Option Nat := do
  let parts := dottedParts name
  if parts.length > 4 then none
  else
    let numbers ← parts.mapM ipv4Number?
    let last ← numbers.getLast?
    let others := numbers.dropLast
    if last < Nat.pow 256 (4 - others.length) && others.all (· < 256) then
      some (others.zipIdx.foldl (fun n (p, i) => n + p * Nat.pow 256 (3 - i)) last)
    else none

/-- An IPv4 address with dots. -/
def renderIpv4 (n : Nat) : String :=
  s!"{n / 0x1000000 % 256}.{n / 0x10000 % 256}.{n / 0x100 % 256}.{n % 256}"

/-! ### IPv6 -/

/-- A byte of a dotted tail: no leading zero. -/
def tailByte? (part : List Char) : Option Nat := do
  let n ← if part.isEmpty then none else numberOf? 10 part
  if n < 256 && (part.length == 1 || part.head? != some '0') then some n else none

/-- The two groups of a dotted tail. -/
def dottedTail? (part : List Char) : Option (List Nat) := do
  match ← (Text.pieces '.' part).mapM tailByte? with
  | [a, b, c, d] => some [256 * a + b, 256 * c + d]
  | _ => none

/-- A group of one to four hexadecimal digits. -/
def hexGroup? (part : List Char) : Option Nat :=
  if part.isEmpty || part.length > 4 then none else numberOf? 16 part

/-- The groups of a list of parts, of which the last one may be a dotted tail. -/
def groups? : List (List Char) → Option (List Nat)
  | [] => some []
  | [part] => if part.contains '.' then dottedTail? part else (hexGroup? part).map ([·])
  | part :: rest => do some ((← hexGroup? part) :: (← groups? rest))

/-- The groups of a side of a double colon. -/
def side? (text : List Char) : Option (List Nat) :=
  if text.isEmpty then some [] else groups? (Text.pieces ':' text)

/-- The eight groups of an IPv6 address. -/
def ipv6? (text : List Char) : Option (List Nat) :=
  match Text.cutText [':', ':'] text with
  | some (before, after) => do
    let left ← if before.contains '.' then none else side? before
    let right ← side? after
    let missing := 8 - left.length - right.length
    if left.length + right.length < 8 then
      some (left ++ List.replicate missing 0 ++ right)
    else none
  | none => do
    let all ← side? text
    if all.length = 8 then some all else none

/-- The length of the run of zeros at the start. -/
def zeroRun (groups : List Nat) : Nat := (groups.takeWhile (· == 0)).length

/-- Where the first of the longest runs of zeros starts, and its length. -/
def longestRun : List Nat → Nat × Nat
  | [] => (0, 0)
  | g :: rest =>
    let here := zeroRun (g :: rest)
    let (start, length) := longestRun rest
    if here ≥ length then (0, here) else (start + 1, length)

/-- Groups with colons between them. -/
def renderGroups (groups : List Nat) : String :=
  String.intercalate ":" (groups.map fun g => String.ofList (Nat.toDigits 16 g))

/-- An IPv6 address between brackets, its longest run of zeros left out. -/
def renderIpv6 (groups : List Nat) : String :=
  let (start, length) := longestRun groups
  if length < 2 then "[" ++ renderGroups groups ++ "]"
  else
    "[" ++ renderGroups (groups.take start) ++ "::" ++ renderGroups (groups.drop (start + length))
      ++ "]"

end Depot.Url
