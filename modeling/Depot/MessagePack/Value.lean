import Depot.Bytes.Basic

/-!
# MessagePack values

The values that stored records are made of, and their shortest written form.
-/

namespace Depot.MessagePack

/-- A value. Numbers keep apart the forms with and without a sign, texts are bytes that may fail to
be UTF-8. -/
inductive Value where
  /-- No value. -/
  | nil
  /-- A truth value. -/
  | bool (b : Bool)
  /-- A number in a form without sign. -/
  | unsigned (n : Nat)
  /-- A number in a form with sign. -/
  | signed (n : Int)
  /-- A floating-point number, by its bytes. -/
  | float (bits : Bytes)
  /-- A text, by its bytes. -/
  | text (b : Bytes)
  /-- A byte string. -/
  | binary (b : Bytes)
  /-- A list. -/
  | array (items : List Value)
  /-- A list of keys and values. -/
  | map (entries : List (Value × Value))
  /-- Bytes of a kind of their own. -/
  | extension (kind : UInt8) (data : Bytes)

/-- The low `width` bytes of a number, the highest first. -/
def bigEndian : Nat → Nat → Bytes
  | 0, _ => []
  | width + 1, n => (n >>> (8 * width)).toUInt8 :: bigEndian width n

/-- A number after the marker of the first width that it fits. -/
def sized (n : Nat) : List (UInt8 × Nat) → Bytes
  | [] => []
  | (marker, width) :: wider =>
    if n < Nat.pow 256 width then marker :: bigEndian width n else sized n wider

/-- The head of something with a length: a short one is part of the marker. -/
def head (short : UInt8) (limit : Nat) (markers : List (UInt8 × Nat)) (n : Nat) : Bytes :=
  if n < limit then [short + n.toUInt8] else sized n markers

/-- The length of a list as it is written: in 32 bits. -/
def count {α : Type} (l : List α) : Nat := l.length % Nat.pow 2 32

/-- A number that is not negative, in its shortest form. -/
def writeNat (n : Nat) : Bytes := head 0 128 [(0xcc, 1), (0xcd, 2), (0xce, 4), (0xcf, 8)] n

/-- A number in its shortest form. -/
def writeInt : Int → Bytes
  | .ofNat n => writeNat n
  | .negSucc n =>
    if n < 32 then [0xff - n.toUInt8]
    else if n < 0x80 then 0xd0 :: bigEndian 1 (0xff - n)
    else if n < 0x8000 then 0xd1 :: bigEndian 2 (0xffff - n)
    else if n < 0x80000000 then 0xd2 :: bigEndian 4 (0xffffffff - n)
    else 0xd3 :: bigEndian 8 (0xffffffffffffffff - n)

/-- A text. -/
def writeText (b : Bytes) : Bytes :=
  head 0xa0 32 [(0xd9, 1), (0xda, 2), (0xdb, 4)] (count b) ++ b

/-- The head of bytes of a kind: for some lengths the marker is the whole of it. -/
def extensionHead : Nat → Bytes
  | 1 => [0xd4]
  | 2 => [0xd5]
  | 4 => [0xd6]
  | 8 => [0xd7]
  | 16 => [0xd8]
  | n => sized n [(0xc7, 1), (0xc8, 2), (0xc9, 4)]

/-- The head of a list. -/
def arrayHead (n : Nat) : Bytes := head 0x90 16 [(0xdc, 2), (0xdd, 4)] n

/-- The head of a list of keys and values. -/
def mapHead (n : Nat) : Bytes := head 0x80 16 [(0xde, 2), (0xdf, 4)] n

mutual

/-- The shortest written form of a value. -/
def Value.write : Value → Bytes
  | .nil => [0xc0]
  | .bool b => [if b then 0xc3 else 0xc2]
  | .unsigned n => writeNat n
  | .signed n => writeInt n
  | .float bits => (if bits.length = 4 then 0xca else 0xcb) :: bits
  | .text b => writeText b
  | .binary b => sized (count b) [(0xc4, 1), (0xc5, 2), (0xc6, 4)] ++ b
  | .array items => arrayHead (count items) ++ writeItems items
  | .map entries => mapHead (count entries) ++ writeEntries entries
  | .extension kind data => extensionHead (count data) ++ kind :: data

/-- Values one after the other. -/
def writeItems : List Value → Bytes
  | [] => []
  | v :: rest => v.write ++ writeItems rest

/-- Keys and values one after the other. -/
def writeEntries : List (Value × Value) → Bytes
  | [] => []
  | (k, v) :: rest => k.write ++ v.write ++ writeEntries rest

end

end Depot.MessagePack
