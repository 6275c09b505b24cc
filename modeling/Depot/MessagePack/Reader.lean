import Depot.MessagePack.Value

/-!
# Reading MessagePack

A reader takes one value off the start of a byte string and leaves the rest. It accepts every
width of a number or a length, refuses the reserved marker, and bounds how deep values nest.
-/

namespace Depot.MessagePack

/-- Takes `n` bytes. -/
def takeBytes (n : Nat) (b : Bytes) : Option (Bytes × Bytes) :=
  if n ≤ b.length then some (b.take n, b.drop n) else none

/-- Takes a number of `width` bytes, the highest first. -/
def takeNat (width : Nat) (b : Bytes) : Option (Nat × Bytes) :=
  (takeBytes width b).map fun (digits, rest) =>
    (digits.foldl (fun n d => 256 * n + d.toNat) 0, rest)

/-- Takes a number of `width` bytes in two's complement. -/
def takeInt (width : Nat) (b : Bytes) : Option (Int × Bytes) :=
  (takeNat width b).map fun (n, rest) =>
    (if 2 * n < Nat.pow 256 width then (n : Int) else (n : Int) - Nat.pow 256 width, rest)

/-- Takes `n` values by a reader of one. -/
def takeMany {α : Type} (one : Bytes → Option (α × Bytes)) : Nat → Bytes → Option (List α × Bytes)
  | 0, b => some ([], b)
  | n + 1, b => do
    let (v, b) ← one b
    let (vs, b) ← takeMany one n b
    some (v :: vs, b)

/-- Takes two values by a reader of one. -/
def takePair {α : Type} (one : Bytes → Option (α × Bytes)) (b : Bytes) :
    Option ((α × α) × Bytes) := do
  let (k, b) ← one b
  let (v, b) ← one b
  some ((k, v), b)

/-- What a marker announces. -/
inductive Shape where
  /-- A whole value. -/
  | value (v : Value)
  /-- A number of some bytes without sign. -/
  | unsigned (width : Nat)
  /-- A number of some bytes in two's complement. -/
  | signed (width : Nat)
  /-- A floating-point number of some bytes. -/
  | float (width : Nat)
  /-- A text of a known length. -/
  | text (length : Nat)
  /-- A list of a known length. -/
  | array (length : Nat)
  /-- A list of keys and values of a known length. -/
  | map (length : Nat)
  /-- A kind and then bytes of a known length. -/
  | extension (length : Nat)
  /-- A text whose length follows in some bytes. -/
  | sizedText (width : Nat)
  /-- A byte string whose length follows in some bytes. -/
  | sizedBinary (width : Nat)
  /-- A list whose length follows in some bytes. -/
  | sizedArray (width : Nat)
  /-- A list of keys and values whose length follows in some bytes. -/
  | sizedMap (width : Nat)
  /-- Bytes whose length follows in some bytes, then their kind. -/
  | sizedExtension (width : Nat)

/-- Whether what is announced counts as a level of nesting. An extension does, with its bytes
inside. -/
def Shape.nests : Shape → Bool
  | .array _ | .map _ | .extension _ | .sizedArray _ | .sizedMap _ | .sizedExtension _ => true
  | _ => false

/-- What a marker announces; none for the reserved one. -/
def shape? (marker : UInt8) : Option Shape :=
  let n := marker.toNat
  if n < 0x80 then some (.value (.unsigned n))
  else if n < 0x90 then some (.map (n - 0x80))
  else if n < 0xa0 then some (.array (n - 0x90))
  else if n < 0xc0 then some (.text (n - 0xa0))
  else if 0xe0 ≤ n then some (.value (.signed ((n : Int) - 256)))
  else match n with
    | 0xc0 => some (.value .nil)
    | 0xc2 => some (.value (.bool false))
    | 0xc3 => some (.value (.bool true))
    | 0xc4 => some (.sizedBinary 1)
    | 0xc5 => some (.sizedBinary 2)
    | 0xc6 => some (.sizedBinary 4)
    | 0xc7 => some (.sizedExtension 1)
    | 0xc8 => some (.sizedExtension 2)
    | 0xc9 => some (.sizedExtension 4)
    | 0xca => some (.float 4)
    | 0xcb => some (.float 8)
    | 0xcc => some (.unsigned 1)
    | 0xcd => some (.unsigned 2)
    | 0xce => some (.unsigned 4)
    | 0xcf => some (.unsigned 8)
    | 0xd0 => some (.signed 1)
    | 0xd1 => some (.signed 2)
    | 0xd2 => some (.signed 4)
    | 0xd3 => some (.signed 8)
    | 0xd4 => some (.extension 1)
    | 0xd5 => some (.extension 2)
    | 0xd6 => some (.extension 4)
    | 0xd7 => some (.extension 8)
    | 0xd8 => some (.extension 16)
    | 0xd9 => some (.sizedText 1)
    | 0xda => some (.sizedText 2)
    | 0xdb => some (.sizedText 4)
    | 0xdc => some (.sizedArray 2)
    | 0xdd => some (.sizedArray 4)
    | 0xde => some (.sizedMap 2)
    | 0xdf => some (.sizedMap 4)
    | _ => none

/-- Takes a kind and then `n` bytes. -/
def takeExtension (n : Nat) : Bytes → Option (Value × Bytes)
  | [] => none
  | kind :: b => (takeBytes n b).map fun (data, b) => (.extension kind data, b)

/-- Takes what a marker announces, the members of lists by a reader of one value. -/
def takeShape (one : Bytes → Option (Value × Bytes)) (s : Shape) (b : Bytes) :
    Option (Value × Bytes) :=
  let text (n : Nat) (b : Bytes) := (takeBytes n b).map fun (t, b) => (Value.text t, b)
  let array (n : Nat) (b : Bytes) := (takeMany one n b).map fun (vs, b) => (Value.array vs, b)
  let map (n : Nat) (b : Bytes) :=
    (takeMany (takePair one) n b).map fun (es, b) => (Value.map es, b)
  match s with
  | .value v => some (v, b)
  | .unsigned width => (takeNat width b).map fun (n, b) => (.unsigned n, b)
  | .signed width => (takeInt width b).map fun (n, b) => (.signed n, b)
  | .float width => (takeBytes width b).map fun (bits, b) => (.float bits, b)
  | .text n => text n b
  | .array n => array n b
  | .map n => map n b
  | .extension n => takeExtension n b
  | .sizedText width => (takeNat width b).bind fun (n, b) => text n b
  | .sizedBinary width => (takeNat width b).bind fun (n, b) =>
      (takeBytes n b).map fun (t, b) => (.binary t, b)
  | .sizedArray width => (takeNat width b).bind fun (n, b) => array n b
  | .sizedMap width => (takeNat width b).bind fun (n, b) => map n b
  | .sizedExtension width => (takeNat width b).bind fun (n, b) => takeExtension n b

/-- Takes one value in which values nest less than `depth` deep. -/
def takeValue : Nat → Bytes → Option (Value × Bytes)
  | 0, _ => none
  | _, [] => none
  | depth + 1, marker :: b => (shape? marker).bind fun s =>
      if s.nests && depth == 0 then none else takeShape (takeValue depth) s b

/-- The depth that a stored value has to stay below. It is a bound of the format's reader, which goes
down a level by a call; that there is stack enough for so many calls is taken for granted. -/
def maxDepth : Nat := 1024

/-- The value at the start of a byte string, whatever follows it. -/
def Value.read? (b : Bytes) : Option Value := (takeValue maxDepth b).map Prod.fst

end Depot.MessagePack
