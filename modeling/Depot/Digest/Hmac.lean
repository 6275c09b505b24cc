import Depot.Digest.Sha256

/-!
# Keyed digests

HMAC with SHA-256. The key enters through two blocks that do not depend on the message, so the
chaining words after them are kept and used for every message under the key.

Headlines
* **`macDigest_eq_mac`**: the short way to the keyed digest of a digest is the keyed digest of its
  bytes.
-/

namespace Depot.Hmac

open Sha256

/-- The chaining words after the two blocks of a key. -/
structure Key where
  /-- After the block that precedes the message. -/
  inner : State
  /-- After the block that precedes the inner digest. -/
  outer : State
deriving DecidableEq, Repr

/-- A key in the 64 bytes of a block: longer ones are digested first. -/
def keyBlock (key : Bytes) : Bytes :=
  let short := if key.length > 64 then digest key else key
  short ++ List.replicate (64 - short.length) 0

/-- The chaining words after a block of a key, each byte of which is combined with `pad`. -/
def padded (block : Bytes) (pad : UInt8) : State :=
  initial.compress (words (block.map (· ^^^ pad)))

/-- The key of a byte string. -/
def Key.ofBytes (key : Bytes) : Key :=
  let block := keyBlock key
  ⟨padded block 0x36, padded block 0x5c⟩

/-- The digest of bytes that follow one block. -/
def after (s : State) (b : Bytes) : State :=
  let c : Context := Context.update ⟨s, [], 64⟩ b
  (c.update (padding c.length)).state

/-- The keyed digest of a message, as chaining words. -/
def Key.mac (k : Key) (message : Bytes) : State := after k.outer (after k.inner message).bytes

/-- The keyed digest of a message. -/
def sign (key message : Bytes) : Bytes := ((Key.ofBytes key).mac message).bytes

/-- The keyed digest of a digest, the one message that key derivation repeats. -/
def Key.macDigest (k : Key) (u : State) : State :=
  let block (s : State) : List UInt32 :=
    [s.a, s.b, s.c, s.d, s.e, s.f, s.g, s.h, 0x80000000, 0, 0, 0, 0, 0, 0, 768]
  k.outer.compress (block (k.inner.compress (block u)))

/-- The bytes of a digest and what follows them fill one block. -/
theorem after_bytes (s t : State) :
    after s t.bytes = s.compress
      [t.a, t.b, t.c, t.d, t.e, t.f, t.g, t.h, 0x80000000, 0, 0, 0, 0, 0, 0, 768] := by
  have block : words (t.bytes ++ padding 96)
      = [t.a, t.b, t.c, t.d, t.e, t.f, t.g, t.h, 0x80000000, 0, 0, 0, 0, 0, 0, 768] := by
    rw [show padding 96 = [0x80000000, 0, 0, 0, 0, 0, 0, 768].flatMap wordBytes by decide]
    simp only [State.bytes, List.flatMap_cons, List.flatMap_nil, wordBytes, List.cons_append,
      List.nil_append, words, word_wordBytes]
  have held : Context.update ⟨s, [], 64⟩ t.bytes = ⟨s, t.bytes, 96⟩ := by
    simp [Context.update, length_bytes, absorb]
  have whole : (t.bytes ++ padding 96).length = 64 := rfl
  unfold after
  simp only [held]
  simp only [Context.update, whole]
  rw [← block, show 64 / 64 = 0 + 1 from rfl, absorb, absorb,
    List.take_of_length_le (Nat.le_of_eq whole)]

/-- The short way to the keyed digest of a digest is the keyed digest of its bytes. -/
theorem macDigest_eq_mac (k : Key) (u : State) : k.macDigest u = k.mac u.bytes := by
  simp only [Key.mac, after_bytes, Key.macDigest]

end Depot.Hmac
