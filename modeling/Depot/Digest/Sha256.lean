import Depot.Bytes.Hex

/-!
# SHA-256

The digest of a byte string, taken as a whole or in pieces: a context absorbs any number of pieces
and then gives the digest of them all.

Headlines
* **`update_update`**: absorbing two pieces is absorbing them joined.
* **`word_wordBytes`**: a word is read back from its bytes.
-/

namespace Depot.Sha256

/-- The eight chaining words. -/
structure State where
  /-- The words in order. -/
  (a b c d e f g h : UInt32)
deriving DecidableEq, Repr, Inhabited

/-- The chaining words before the first block. -/
def initial : State :=
  ⟨0x6a09e667, 0xbb67ae85, 0x3c6ef372, 0xa54ff53a, 0x510e527f, 0x9b05688c, 0x1f83d9ab, 0x5be0cd19⟩

/-- The constants of the 64 rounds. -/
def roundConstants : List UInt32 :=
  [0x428a2f98, 0x71374491, 0xb5c0fbcf, 0xe9b5dba5, 0x3956c25b, 0x59f111f1, 0x923f82a4, 0xab1c5ed5,
   0xd807aa98, 0x12835b01, 0x243185be, 0x550c7dc3, 0x72be5d74, 0x80deb1fe, 0x9bdc06a7, 0xc19bf174,
   0xe49b69c1, 0xefbe4786, 0x0fc19dc6, 0x240ca1cc, 0x2de92c6f, 0x4a7484aa, 0x5cb0a9dc, 0x76f988da,
   0x983e5152, 0xa831c66d, 0xb00327c8, 0xbf597fc7, 0xc6e00bf3, 0xd5a79147, 0x06ca6351, 0x14292967,
   0x27b70a85, 0x2e1b2138, 0x4d2c6dfc, 0x53380d13, 0x650a7354, 0x766a0abb, 0x81c2c92e, 0x92722c85,
   0xa2bfe8a1, 0xa81a664b, 0xc24b8b70, 0xc76c51a3, 0xd192e819, 0xd6990624, 0xf40e3585, 0x106aa070,
   0x19a4c116, 0x1e376c08, 0x2748774c, 0x34b0bcb5, 0x391c0cb3, 0x4ed8aa4a, 0x5b9cca4f, 0x682e6ff3,
   0x748f82ee, 0x78a5636f, 0x84c87814, 0x8cc70208, 0x90befffa, 0xa4506ceb, 0xbef9a3f7, 0xc67178f2]

/-- Rotation to the right. -/
@[inline] def rotate (x : UInt32) (n : UInt32) : UInt32 := (x >>> n) ||| (x <<< (32 - n))

/-- The rounds for a list of constants. The sixteen words `w` are a window on the message schedule:
each round uses its first word and adds a new last one. -/
def rounds (ks : List UInt32)
    (w0 w1 w2 w3 w4 w5 w6 w7 w8 w9 w10 w11 w12 w13 w14 w15 a b c d e f g h : UInt32) : State :=
  match ks with
  | [] => ⟨a, b, c, d, e, f, g, h⟩
  | k :: ks =>
    let s0 := rotate w1 7 ^^^ rotate w1 18 ^^^ (w1 >>> 3)
    let s1 := rotate w14 17 ^^^ rotate w14 19 ^^^ (w14 >>> 10)
    let e1 := rotate e 6 ^^^ rotate e 11 ^^^ rotate e 25
    let choice := (e &&& f) ^^^ ((~~~e) &&& g)
    let t1 := h + e1 + choice + k + w0
    let a0 := rotate a 2 ^^^ rotate a 13 ^^^ rotate a 22
    let majority := (a &&& b) ^^^ (a &&& c) ^^^ (b &&& c)
    rounds ks w1 w2 w3 w4 w5 w6 w7 w8 w9 w10 w11 w12 w13 w14 w15 (w0 + s0 + w9 + s1)
      (t1 + (a0 + majority)) a b c (d + t1) e f g

/-- The chaining words after a block of sixteen words. -/
def State.compress (s : State) (block : List UInt32) : State :=
  match block with
  | [w0, w1, w2, w3, w4, w5, w6, w7, w8, w9, w10, w11, w12, w13, w14, w15] =>
    let t := rounds roundConstants w0 w1 w2 w3 w4 w5 w6 w7 w8 w9 w10 w11 w12 w13 w14 w15
      s.a s.b s.c s.d s.e s.f s.g s.h
    ⟨s.a + t.a, s.b + t.b, s.c + t.c, s.d + t.d, s.e + t.e, s.f + t.f, s.g + t.g, s.h + t.h⟩
  | _ => s

/-- The word of four bytes, the first one highest. -/
def word (p q r s : UInt8) : UInt32 :=
  (p.toUInt32 <<< 24) ||| (q.toUInt32 <<< 16) ||| (r.toUInt32 <<< 8) ||| s.toUInt32

/-- The words of a byte string. -/
def words : Bytes → List UInt32
  | p :: q :: r :: s :: rest => word p q r s :: words rest
  | _ => []

/-- The bytes of a word, the highest first. -/
def wordBytes (w : UInt32) : Bytes :=
  [(w >>> 24).toUInt8, (w >>> 16).toUInt8, (w >>> 8).toUInt8, w.toUInt8]

/-- The chaining words as bytes. -/
def State.bytes (s : State) : Bytes :=
  [s.a, s.b, s.c, s.d, s.e, s.f, s.g, s.h].flatMap wordBytes

/-- What has been absorbed so far. -/
structure Context where
  /-- The chaining words after the whole blocks. -/
  state : State
  /-- The bytes after the last whole block. -/
  rest : Bytes
  /-- The number of bytes absorbed. -/
  length : Nat
deriving DecidableEq, Repr

/-- The context that has absorbed nothing. -/
def Context.empty : Context := ⟨initial, [], 0⟩

/-- Compresses `n` blocks off the start of a byte string. -/
def absorb : Nat → State → Bytes → State × Bytes
  | 0, s, b => (s, b)
  | n + 1, s, b => absorb n (s.compress (words (b.take 64))) (b.drop 64)

/-- Absorbs a piece. -/
def Context.update (c : Context) (piece : Bytes) : Context :=
  let b := c.rest ++ piece
  let (state, rest) := absorb (b.length / 64) c.state b
  ⟨state, rest, c.length + piece.length⟩

/-- A number in eight bytes, the highest first. -/
def lengthBytes (n : Nat) : Bytes :=
  [56, 48, 40, 32, 24, 16, 8, 0].map fun shift => (n >>> shift).toUInt8

/-- What follows `length` bytes so that they fill whole blocks: a one bit, zeros, and the length in
bits. -/
def padding (length : Nat) : Bytes :=
  0x80 :: List.replicate ((119 - length % 64) % 64) 0 ++ lengthBytes (8 * length)

/-- The digest of what has been absorbed. -/
def Context.finish (c : Context) : Bytes := (c.update (padding c.length)).state.bytes

/-- The digest of a byte string. -/
def digest (b : Bytes) : Bytes := (Context.empty.update b).finish

/-- The digest of a byte string in lower-case digits. -/
def hexDigest (b : Bytes) : String := Hex.encode (digest b)

/-- Blocks can be compressed in two goes. -/
theorem absorb_add (m n : Nat) (s : State) (b : Bytes) :
    absorb (m + n) s b = absorb n (absorb m s b).1 (absorb m s b).2 := by
  induction m generalizing s b with
  | zero => simp [absorb]
  | succ m ih => rw [Nat.succ_add]; exact ih _ _

/-- What follows the blocks that are compressed stays as it is. -/
theorem absorb_append (n : Nat) (s : State) (b c : Bytes) (h : 64 * n ≤ b.length) :
    absorb n s (b ++ c) = ((absorb n s b).1, (absorb n s b).2 ++ c) := by
  induction n generalizing s b with
  | zero => simp [absorb]
  | succ n ih =>
    have hb : 64 ≤ b.length := by omega
    simp only [absorb, List.take_append_of_le_length hb, List.drop_append_of_le_length hb]
    exact ih _ _ (by rw [List.length_drop]; omega)

theorem length_absorb (n : Nat) (s : State) (b : Bytes) :
    (absorb n s b).2.length = b.length - 64 * n := by
  induction n generalizing s b with
  | zero => simp [absorb]
  | succ n ih => simp only [absorb, ih, List.length_drop]; omega

/-- Absorbing two pieces is absorbing them joined. -/
theorem update_update (c : Context) (x y : Bytes) :
    (c.update x).update y = c.update (x ++ y) := by
  simp only [Context.update]
  generalize hb : c.rest ++ x = b
  have hbxy : c.rest ++ (x ++ y) = b ++ y := by rw [← hb, List.append_assoc]
  rw [hbxy]
  have hle : 64 * (b.length / 64) ≤ b.length := Nat.mul_div_le _ _
  have hsplit := absorb_append (b.length / 64) c.state b y hle
  have hlen := length_absorb (b.length / 64) c.state b
  have hcount : (b ++ y).length / 64
      = b.length / 64 + ((absorb (b.length / 64) c.state b).2 ++ y).length / 64 := by
    rw [List.length_append, List.length_append, hlen]; omega
  rw [hcount, absorb_add, hsplit]
  simp [List.length_append, Nat.add_assoc]

/-- The lowest byte of a word holds its lowest eight bits. -/
theorem getLsbD_byte (w : UInt32) (i : Nat) :
    w.toUInt8.toUInt32.toBitVec.getLsbD i = (decide (i < 8) && w.toBitVec.getLsbD i) := by
  rw [UInt8.toBitVec_toUInt32, UInt32.toBitVec_toUInt8, BitVec.getLsbD_setWidth,
    BitVec.getLsbD_setWidth]
  by_cases h : i < 8
  · simp [h, show i < 32 by omega]
  · simp [h]

/-- A word is read back from its bytes. -/
theorem word_wordBytes (w : UInt32) :
    word (w >>> 24).toUInt8 (w >>> 16).toUInt8 (w >>> 8).toUInt8 w.toUInt8 = w := by
  apply UInt32.toBitVec_inj.1
  apply BitVec.eq_of_getLsbD_eq
  intro i hi
  have or (a b : UInt32) (n : Nat) :
      (a ||| b).toBitVec.getLsbD n = (a.toBitVec.getLsbD n || b.toBitVec.getLsbD n) := by simp
  have l24 (a : UInt32) : (a <<< 24).toBitVec.getLsbD i
      = (!decide (i < 24) && a.toBitVec.getLsbD (i - 24)) := by
    simp [hi, BitVec.getLsbD_eq_getElem, show i - 24 < 32 by omega]
  have l16 (a : UInt32) : (a <<< 16).toBitVec.getLsbD i
      = (!decide (i < 16) && a.toBitVec.getLsbD (i - 16)) := by
    simp [hi, BitVec.getLsbD_eq_getElem, show i - 16 < 32 by omega]
  have l8 (a : UInt32) : (a <<< 8).toBitVec.getLsbD i
      = (!decide (i < 8) && a.toBitVec.getLsbD (i - 8)) := by
    simp [hi, BitVec.getLsbD_eq_getElem, show i - 8 < 32 by omega]
  have r24 (n : Nat) : (w >>> 24).toBitVec.getLsbD n = w.toBitVec.getLsbD (24 + n) := by simp
  have r16 (n : Nat) : (w >>> 16).toBitVec.getLsbD n = w.toBitVec.getLsbD (16 + n) := by simp
  have r8 (n : Nat) : (w >>> 8).toBitVec.getLsbD n = w.toBitVec.getLsbD (8 + n) := by simp
  simp only [word, or, l24, l16, l8, getLsbD_byte, r24, r16, r8]
  have h : i < 8 ∨ (8 ≤ i ∧ i < 16) ∨ (16 ≤ i ∧ i < 24) ∨ 24 ≤ i := by omega
  rcases h with h | ⟨h, h'⟩ | ⟨h, h'⟩ | h
  · simp [h, show i < 24 by omega, show i < 16 by omega]
  · simp [h', show i < 24 by omega, show ¬ i < 8 by omega, show i - 8 < 8 by omega,
      show 8 + (i - 8) = i by omega]
  · simp [h', show ¬ i < 16 by omega, show ¬ i < 8 by omega, show ¬ i - 8 < 8 by omega,
      show i - 16 < 8 by omega, show 16 + (i - 16) = i by omega]
  · simp [show ¬ i < 24 by omega, show ¬ i < 16 by omega, show ¬ i < 8 by omega,
      show ¬ i - 8 < 8 by omega, show ¬ i - 16 < 8 by omega, show i - 24 < 8 by omega,
      show 24 + (i - 24) = i by omega]

theorem length_bytes (s : State) : s.bytes.length = 32 := rfl

@[simp] theorem length_digest (b : Bytes) : (digest b).length = 32 := rfl

end Depot.Sha256
