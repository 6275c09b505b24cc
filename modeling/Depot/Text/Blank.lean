/-!
# White space

The twenty-five characters that Unicode calls white space, and trimming them off the ends of a
text.
-/

namespace Depot.Text

/-- Whether a code point lies in one of the ranges. -/
def inRanges (ranges : List (Nat × Nat)) (n : Nat) : Bool :=
  ranges.any fun r => r.1 ≤ n && n ≤ r.2

/-- Ranges of white space. -/
def blankRanges : List (Nat × Nat) :=
  [(0x9, 0xd), (0x20, 0x20), (0x85, 0x85), (0xa0, 0xa0), (0x1680, 0x1680), (0x2000, 0x200a),
   (0x2028, 0x2029), (0x202f, 0x202f), (0x205f, 0x205f), (0x3000, 0x3000)]

/-- Whether a character is white space. -/
def isBlank (c : Char) : Bool := inRanges blankRanges c.toNat

/-- Leaves out the members at both ends that satisfy `p`. -/
def stripWhile {α : Type} (p : α → Bool) (l : List α) : List α :=
  ((l.dropWhile p).reverse.dropWhile p).reverse

/-- Leaves out the members at the end that satisfy `p`. -/
def stripEnd {α : Type} (p : α → Bool) (l : List α) : List α := (l.reverse.dropWhile p).reverse

/-- Leaves out white space at both ends. -/
def trim (s : String) : String := String.ofList (stripWhile isBlank s.toList)

/-- Leaves out one character, however often it is repeated, at the end. -/
def trimEnd (c : Char) (s : String) : String := String.ofList (stripEnd (· == c) s.toList)

/-- Trimming leaves a part without white space at its ends: the characters are a stretch of the
given ones. -/
theorem stripWhile_sublist {α : Type} (p : α → Bool) (l : List α) :
    (stripWhile p l).Sublist l := by
  have h1 := List.dropWhile_sublist p (l := (l.dropWhile p).reverse)
  have h2 := List.dropWhile_sublist p (l := l)
  have h3 := List.Sublist.reverse h1
  rw [List.reverse_reverse] at h3
  exact h3.trans h2

end Depot.Text
