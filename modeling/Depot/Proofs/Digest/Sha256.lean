import Depot.Digest.Sha256

/-!
# The digest of a message in one go

The digest of a message is told without a context: the message is padded to whole blocks, and the
chaining words go through these one after another. A context that has absorbed the message in any
pieces comes to the same, because what it keeps back is what follows the last whole block.

Headlines
* **`digest_eq`**: the digest of a message is that of its padded blocks.
-/

namespace Depot.Sha256

/-- The block of a padded message with a number. -/
def blockAt (m : Bytes) (i : Nat) : Bytes := (m.drop (64 * i)).take 64

/-- The chaining words after a number of blocks of a padded message. -/
def chain (s : State) (m : Bytes) (n : Nat) : State :=
  (List.range n).foldl (fun s i => s.compress (words (blockAt m i))) s

/-- The digest of a message in one go. -/
def ofMessage (m : Bytes) : Bytes :=
  let padded := m ++ padding m.length
  (chain initial padded (padded.length / 64)).bytes

/-- Absorbing a number of blocks takes the chaining words through them. -/
theorem absorb_eq (n : Nat) (s : State) (m : Bytes) :
    absorb n s m = (chain s m n, m.drop (64 * n)) := by
  induction n with
  | zero => rfl
  | succ n ih =>
    have hlast : chain s m (n + 1) = (chain s m n).compress (words (blockAt m n)) := by
      unfold chain
      rw [List.range_succ, List.foldl_append]
      rfl
    rw [absorb_add, ih, hlast]
    show ((chain s m n).compress (words (blockAt m n)), (m.drop (64 * n)).drop 64) = _
    rw [List.drop_drop]
    rfl

/-- A context that has absorbed nothing before absorbs a whole message block by block. -/
theorem update_empty (m : Bytes) : Context.empty.update m =
    ⟨chain initial m (m.length / 64), m.drop (64 * (m.length / 64)), m.length⟩ := by
  have habsorb := absorb_eq (m.length / 64) initial m
  show Context.mk (absorb (m.length / 64) initial m).1 (absorb (m.length / 64) initial m).2
    (0 + m.length) = _
  rw [habsorb, Nat.zero_add]

/-- **The digest of a message is that of its padded blocks.** -/
theorem digest_eq (m : Bytes) : digest m = ofMessage m := by
  have hlength : (Context.empty.update m).length = m.length := Nat.zero_add m.length
  unfold digest Context.finish
  rw [hlength, update_update, update_empty]
  rfl

end Depot.Sha256
