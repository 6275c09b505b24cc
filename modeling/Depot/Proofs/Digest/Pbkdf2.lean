import Depot.Digest.Pbkdf2

/-!
# Keyed digests and derived keys in one go

A keyed digest is told as a digest of digests, and a derived key as blocks of keyed digests of byte
strings. The chaining words that are kept for a key stand for the two blocks that it is first made
into, so what is computed with them is the same.

Headlines
* **`Hmac.sign_eq`**: the keyed digest of a message is the digest of the outer block and of the
  digest of the inner block and the message.
* **`derive_eq`**: a derived key is the start of its blocks, each of them the digests of a chain
  combined.
-/

namespace Depot

open Sha256 (State digest)

namespace Hmac

variable {key message : Bytes}

theorem length_keyBlock (key : Bytes) : (keyBlock key).length = 64 := by
  unfold keyBlock
  simp only [List.length_append, List.length_replicate]
  split
  · rfl
  · omega

/-- The block of a key, each byte of which is combined with another one. -/
def pad (key : Bytes) (b : UInt8) : Bytes := (keyBlock key).map (· ^^^ b)

theorem length_pad (key : Bytes) (b : UInt8) : (pad key b).length = 64 :=
  List.length_map (· ^^^ b) |>.trans (length_keyBlock key)

/-- The keyed digest of a message in one go. -/
def ofMessage (key message : Bytes) : Bytes :=
  digest (pad key 0x5c ++ digest (pad key 0x36 ++ message))

/-- The digest of one block and what follows it goes on from the chaining words after the block. -/
theorem bytes_after {block : Bytes} (h : block.length = 64) (b : Bytes) :
    (after (Sha256.initial.compress (Sha256.words block)) b).bytes = digest (block ++ b) := by
  have hblock : Sha256.Context.empty.update block =
      ⟨Sha256.initial.compress (Sha256.words block), [], 64⟩ := by
    unfold Sha256.Context.update Sha256.Context.empty
    simp only [List.nil_append, Sha256.absorb, h, List.take_of_length_le (Nat.le_of_eq h),
      List.drop_of_length_le (Nat.le_of_eq h), Nat.zero_add]
  unfold digest
  rw [← Sha256.update_update, hblock]
  rfl

/-- **The keyed digest of a message is a digest of digests.** -/
theorem sign_eq (key message : Bytes) : sign key message = ofMessage key message := by
  show (after (Key.ofBytes key).outer (after (Key.ofBytes key).inner message).bytes).bytes = _
  rw [show (Key.ofBytes key).inner =
      Sha256.initial.compress (Sha256.words (pad key 0x36)) from rfl,
    show (Key.ofBytes key).outer =
      Sha256.initial.compress (Sha256.words (pad key 0x5c)) from rfl,
    bytes_after (length_pad key 0x5c), bytes_after (length_pad key 0x36)]
  rfl

end Hmac

namespace Pbkdf2

/-! ### Blocks -/

/-- The bytes of two digests combined. -/
def exclusive (x y : Bytes) : Bytes := List.zipWith (· ^^^ ·) x y

theorem wordBytes_xor (v w : UInt32) :
    Sha256.wordBytes (v ^^^ w) = exclusive (Sha256.wordBytes v) (Sha256.wordBytes w) := by
  simp only [Sha256.wordBytes, exclusive, UInt32.shiftRight_xor, UInt32.toUInt8_xor,
    List.zipWith_cons_cons, List.zipWith_nil_left]

/-- The words of two digests are combined byte by byte. -/
theorem bytes_combine (s t : State) : (combine s t).bytes = exclusive s.bytes t.bytes := by
  simp only [State.bytes, combine, List.flatMap_cons, List.flatMap_nil, wordBytes_xor]
  rfl

/-- The keyed digests of a block: the first one is of the salt and the block's number, and each
other one of its predecessor. -/
def link (password salt : Bytes) (n : Nat) : Nat → Bytes
  | 0 => Hmac.ofMessage password (salt ++ number n)
  | j + 1 => Hmac.ofMessage password (link password salt n j)

/-- The block of a number in one go: as many digests as there are rounds, combined. -/
def blockOf (password salt : Bytes) (rounds n : Nat) : Bytes :=
  (List.range (rounds - 1)).foldl (fun acc j => exclusive acc (link password salt n (j + 1)))
    (link password salt n 0)

/-- A key of `length` bytes in one go: the start of the blocks from the first one on. -/
def keyOf (password salt : Bytes) (rounds length : Nat) : Bytes :=
  ((List.range ((length + 31) / 32)).flatMap fun i => blockOf password salt rounds (i + 1)).take
    length

variable {password salt : Bytes}

/-- A chain combines the digests that follow the one it goes on from. -/
theorem bytes_chain {n m : Nat} {u : State} (hu : u.bytes = link password salt n m) (rounds : Nat)
    (acc : State) : (chain (Hmac.Key.ofBytes password) rounds u acc).bytes =
      (List.range rounds).foldl (fun acc j => exclusive acc (link password salt n (m + 1 + j)))
        acc.bytes := by
  induction rounds generalizing m u acc with
  | zero => rfl
  | succ rounds ih =>
    have hnext : ((Hmac.Key.ofBytes password).macDigest u).bytes = link password salt n (m + 1) := by
      rw [Hmac.macDigest_eq_mac, hu]
      exact Hmac.sign_eq password _
    unfold chain
    rw [ih hnext, List.range_succ_eq_map, List.foldl_cons, List.foldl_map, bytes_combine, hnext]
    simp only [Nat.add_zero, Nat.succ_eq_add_one, Nat.add_assoc, Nat.add_comm 1]

theorem block_eq (password salt : Bytes) (rounds n : Nat) :
    block (Hmac.Key.ofBytes password) salt rounds n = blockOf password salt rounds n := by
  have hfirst : ((Hmac.Key.ofBytes password).mac (salt ++ number n)).bytes =
      link password salt n 0 := Hmac.sign_eq password _
  unfold block blockOf
  simp only [bytes_chain hfirst, hfirst, Nat.zero_add, Nat.add_comm 1]

/-- **A derived key is the start of its blocks.** -/
theorem derive_eq (password salt : Bytes) (rounds length : Nat) :
    derive password salt rounds length = keyOf password salt rounds length := by
  unfold derive blocks keyOf
  simp only [block_eq]

theorem length_keyOf (password salt : Bytes) (rounds length : Nat) :
    (keyOf password salt rounds length).length = length := by
  rw [← derive_eq, length_derive]

theorem keyOf_take (password salt : Bytes) (rounds : Nat) {m n : Nat} (h : m ≤ n) :
    (keyOf password salt rounds n).take m = keyOf password salt rounds m := by
  rw [← derive_eq, ← derive_eq, derive_take _ _ _ _ _ h]

end Pbkdf2

end Depot
