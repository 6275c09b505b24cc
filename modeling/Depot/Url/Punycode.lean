/-!
# Punycode

Labels of domain names in ASCII. A label's ASCII characters come first, and then numbers say in
ascending order of the other characters how many places lie between one and the next. The digits of
a number end where one lies below a threshold, which adapts to the numbers before.

Headlines
* `encode` writes a label and `decode?` reads it.
-/

namespace Depot.Punycode

/-- The threshold of the digit at place `k`, places being multiples of 36. -/
def threshold (bias k : Nat) : Nat :=
  if k ≤ bias then 1 else if bias + 26 ≤ k then 26 else k - bias

theorem threshold_pos (bias k : Nat) : 0 < threshold bias k := by
  unfold threshold; split
  · omega
  · split <;> omega

/-- The bias for a step scaled down to `delta`, after `k` has been added for each division. -/
def biasOf (k delta : Nat) : Nat :=
  if 455 < delta then biasOf (k + 36) (delta / 35) else k + 36 * delta / (delta + 38)
termination_by delta

/-- The bias after a step to the character that is the `count`th of its label. -/
def adapt (delta count : Nat) (first : Bool) : Nat :=
  let scaled := if first then delta / 700 else delta / 2
  biasOf 0 (scaled + scaled / count)

/-- A digit. -/
def digit (n : Nat) : Char := Char.ofNat (if n < 26 then 'a'.toNat + n else '0'.toNat + n - 26)

/-- The value of a digit. -/
def digitValue? (c : Char) : Option Nat :=
  if c.isLower then some (c.toNat - 'a'.toNat)
  else if c.isDigit then some (c.toNat - '0'.toNat + 26)
  else none

/-- The digits of a number from place `k` on. -/
def number (bias k n : Nat) : List Char :=
  let t := threshold bias k
  if n < t then [digit n]
  else digit (t + (n - t) % (36 - t)) :: number bias (k + 36) ((n - t) / (36 - t))
termination_by n
decreasing_by
  have := threshold_pos bias k
  exact Nat.lt_of_le_of_lt (Nat.div_le_self _ _) (by omega)

/-- Reads digits off the start of a text, the first one at place `k` with a `weight`, and adds them
to `value`. -/
def readNumber? (bias k weight value : Nat) : List Char → Option (Nat × List Char)
  | [] => none
  | c :: rest =>
    match digitValue? c with
    | none => none
    | some d =>
      let t := threshold bias k
      if d < t then some (value + d * weight, rest)
      else readNumber? bias (k + 36) (weight * (36 - t)) (value + d * weight) rest

/-- The state of encoding a label. -/
structure Encoding where
  /-- The places since the last character that is written. -/
  delta : Nat
  /-- How many characters are written. -/
  handled : Nat
  /-- The bias of the thresholds. -/
  bias : Nat
  /-- The digits. -/
  digits : List Char

/-- Goes over a label for the characters with code point `n`. -/
def passFor (n basic : Nat) (label : List Char) (e : Encoding) : Encoding :=
  label.foldl (fun e c =>
    if c.toNat < n then { e with delta := e.delta + 1 }
    else if c.toNat = n then
      { delta := 0, handled := e.handled + 1,
        bias := adapt e.delta (e.handled + 1) (e.handled == basic),
        digits := e.digits ++ number e.bias 36 e.delta }
    else e) e

/-- Whether a character is in ASCII. -/
def isBasic (c : Char) : Bool := c.toNat < 128

/-- A label in ASCII. -/
def encode (label : List Char) : List Char :=
  let basic := label.filter isBasic
  let points := ((label.filter fun c => !isBasic c).map Char.toNat).mergeSort.eraseDups
  let start : Encoding := ⟨0, basic.length, 72, []⟩
  let (e, _) := points.foldl (fun (e, last) n =>
    let e := { e with delta := e.delta + (n - last) * (e.handled + 1) }
    let e := passFor n basic.length label e
    ({ e with delta := e.delta + 1 }, n + 1)) (start, 128)
  basic ++ (if basic.isEmpty then [] else ['-']) ++ e.digits

theorem length_of_readNumber? {bias k weight value n : Nat} {l rest : List Char}
    (h : readNumber? bias k weight value l = some (n, rest)) : rest.length < l.length := by
  induction l generalizing k weight value with
  | nil => simp [readNumber?] at h
  | cons c l ih =>
    unfold readNumber? at h
    split at h
    · cases h
    · dsimp only at h
      split at h
      · cases h; simp
      · exact Nat.lt_succ_of_lt (ih h)

/-- Places the characters that numbers stand for among those of `label`. `last` is the code point of
the character placed last, and `place` is where the next one may stand. -/
def placeAll? (bias last place : Nat) (label text : List Char) : Option (List Char) :=
  match text with
  | [] => some label
  | c :: text =>
    match _ : readNumber? bias 36 1 place (c :: text) with
    | none => none
    | some (n, rest) =>
      let count := label.length + 1
      let point := last + n / count
      if point.isValidChar then
        placeAll? (adapt (n - place) count (place == 0)) point (n % count + 1)
          (label.insertIdx (n % count) (Char.ofNat point)) rest
      else none
termination_by text.length
decreasing_by exact length_of_readNumber? ‹_›

/-- The label of a text in ASCII. -/
def decode? (text : List Char) : Option (List Char) :=
  let digits := (text.reverse.takeWhile (· != '-')).reverse
  placeAll? 72 128 0 (text.take (text.length - digits.length - 1)) digits

end Depot.Punycode
