import Depot.Digest.Hmac

/-!
# Derived keys

PBKDF2 with HMAC-SHA-256: a key of any length from a password, a salt and a number of rounds that
makes guessing dear. The derived bytes come in blocks of a digest's length, each depending on its
number.
-/

namespace Depot.Pbkdf2

open Sha256 (State)

/-- The words of two digests combined. -/
def combine (s t : State) : State :=
  ⟨s.a ^^^ t.a, s.b ^^^ t.b, s.c ^^^ t.c, s.d ^^^ t.d,
   s.e ^^^ t.e, s.f ^^^ t.f, s.g ^^^ t.g, s.h ^^^ t.h⟩

/-- Combines `acc` with the `n` keyed digests that follow `u`, each one that of its predecessor. -/
def chain (k : Hmac.Key) : Nat → State → State → State
  | 0, _, acc => acc
  | n + 1, u, acc =>
    let v := k.macDigest u
    chain k n v (combine acc v)

/-- A number in four bytes, the highest first. -/
def number (n : Nat) : Bytes := Sha256.wordBytes n.toUInt32

/-- The block of a number, counted from one. -/
def block (k : Hmac.Key) (salt : Bytes) (rounds n : Nat) : Bytes :=
  let u := k.mac (salt ++ number n)
  (chain k (rounds - 1) u u).bytes

/-- The first `count` blocks. -/
def blocks (k : Hmac.Key) (salt : Bytes) (rounds count : Nat) : Bytes :=
  (List.range count).flatMap fun i => block k salt rounds (i + 1)

/-- A key of `length` bytes. -/
def derive (password salt : Bytes) (rounds length : Nat) : Bytes :=
  (blocks (Hmac.Key.ofBytes password) salt rounds ((length + 31) / 32)).take length

theorem length_blocks (k : Hmac.Key) (salt : Bytes) (rounds count : Nat) :
    (blocks k salt rounds count).length = 32 * count := by
  unfold blocks
  induction count with
  | zero => rfl
  | succ n ih =>
    rw [List.range_succ, List.flatMap_append, List.length_append, ih]
    simp [block, Sha256.length_bytes]
    omega

/-- A derived key has the length asked for. -/
@[simp] theorem length_derive (password salt : Bytes) (rounds length : Nat) :
    (derive password salt rounds length).length = length := by
  unfold derive
  rw [List.length_take, length_blocks]
  omega

/-- A shorter key is the start of a longer one. -/
theorem derive_take (password salt : Bytes) (rounds m n : Nat) (h : m ≤ n) :
    (derive password salt rounds n).take m = derive password salt rounds m := by
  have hb : ∀ c d, c ≤ d → ∃ t, blocks (Hmac.Key.ofBytes password) salt rounds d
      = blocks (Hmac.Key.ofBytes password) salt rounds c ++ t := by
    intro c d hcd
    obtain ⟨e, rfl⟩ := Nat.le.dest hcd
    unfold blocks
    rw [List.range_add, List.flatMap_append]
    exact ⟨_, rfl⟩
  obtain ⟨t, ht⟩ := hb ((m + 31) / 32) ((n + 31) / 32) (by omega)
  unfold derive
  rw [List.take_take, Nat.min_eq_left h, ht, List.take_append_of_le_length]
  rw [length_blocks]
  omega

end Depot.Pbkdf2
