/-!
# Bytes and text

Byte strings, and the UTF-8 form of a text.

Headlines
* **`ofUtf8?_eq_some_iff`**: exactly the UTF-8 form of a text reads back as that text.
-/

namespace Depot

/-- A byte string. -/
abbrev Bytes := List UInt8

namespace Bytes

/-- The UTF-8 form of a text. -/
def utf8 (s : String) : Bytes := s.toByteArray.data.toList

/-- The text of which the bytes are the UTF-8 form. -/
def ofUtf8? (b : Bytes) : Option String := String.fromUTF8? ⟨b.toArray⟩

theorem ofUtf8?_eq_some_iff {b : Bytes} {s : String} : ofUtf8? b = some s ↔ b = utf8 s := by
  unfold ofUtf8? String.fromUTF8? utf8
  constructor
  · intro h
    split at h
    · next hv =>
      have := Option.some.inj h
      subst this
      rfl
    · cases h
  · rintro rfl
    have : (⟨s.toByteArray.data.toList.toArray⟩ : ByteArray) = s.toByteArray := by simp
    simp only [this]
    rw [dif_pos s.isValidUTF8]
    rfl

@[simp] theorem ofUtf8?_utf8 (s : String) : ofUtf8? (utf8 s) = some s :=
  ofUtf8?_eq_some_iff.2 rfl

theorem utf8_injective {s t : String} (h : utf8 s = utf8 t) : s = t := by
  have := ofUtf8?_utf8 s
  rw [h, ofUtf8?_utf8] at this
  exact (Option.some.inj this).symm

/-- How a multi-byte character goes on after its first byte: the range of the second byte and how
many more follow it. -/
def continuation? (first : UInt8) : Option (UInt8 × UInt8 × Nat) :=
  if 0xc2 ≤ first ∧ first ≤ 0xdf then some (0x80, 0xbf, 0)
  else if first = 0xe0 then some (0xa0, 0xbf, 1)
  else if first = 0xed then some (0x80, 0x9f, 1)
  else if 0xe1 ≤ first ∧ first ≤ 0xef then some (0x80, 0xbf, 1)
  else if first = 0xf0 then some (0x90, 0xbf, 2)
  else if 0xf1 ≤ first ∧ first ≤ 0xf3 then some (0x80, 0xbf, 2)
  else if first = 0xf4 then some (0x80, 0x8f, 2)
  else none

/-- The length of the longest start of `rest` that can follow `first` in a character, and whether
it completes one. -/
def followers (first : UInt8) (rest : Bytes) : Nat × Bool :=
  match continuation? first, rest with
  | some (low, high, more), second :: rest =>
    if low ≤ second ∧ second ≤ high then
      let tail := (rest.take more).takeWhile fun b => 0x80 ≤ b && b ≤ 0xbf
      (tail.length + 1, tail.length == more)
    else (0, false)
  | _, _ => (0, false)

/-- The characters of a byte string, each longest start of a character that is broken off, and each
byte that cannot start one, replaced by U+FFFD. The first argument bounds the characters. -/
def lossyChars : Nat → Bytes → List Char
  | 0, _ | _, [] => []
  | n + 1, b :: rest =>
    if b < 0x80 then Char.ofNat b.toNat :: lossyChars n rest
    else
      let (len, whole) := followers b rest
      let char := if whole then (ofUtf8? (b :: rest.take len)).getD "\ufffd" else "\ufffd"
      char.toList ++ lossyChars n (rest.drop len)

/-- The text of a byte string, with U+FFFD in the place of what is not UTF-8. -/
def lossyText (b : Bytes) : String := String.ofList (lossyChars b.length b)

/-- The bytes in runs of `n`, of which the last one may be shorter. -/
def runs (n : Nat) (b : Bytes) : List Bytes :=
  go b.length b
where
  /-- The first argument bounds the number of runs. -/
  go : Nat → Bytes → List Bytes
    | 0, _ | _, [] => []
    | k + 1, b => b.take n :: go k (b.drop n)

end Bytes

end Depot
