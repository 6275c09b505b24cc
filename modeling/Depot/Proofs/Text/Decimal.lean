import Depot.Text.Decimal

/-!
# Numbers are read as they are written

A whole number is written with digits alone, and these are read as that number.

Headlines
* **`digits?_toString`**: the digits of a number are read as the number.
* **`int64?_toString`**: so are those of a number that fits 64 bits with a sign.
* **`natUpTo?_eq_some_iff`**: what is read as a number is a numeral of it.
-/

namespace Depot.Text

theorem isDigit_iff {c : Char} : c.isDigit = true ↔ '0' ≤ c ∧ c ≤ '9' :=
  (Bool.and_eq_true_iff).trans (and_congr decide_eq_true_iff decide_eq_true_iff)

/-- Digits are read as the number that they stand for. -/
theorem digitsFrom?_of_isDigit {l : List Char} (h : ∀ c ∈ l, c.isDigit = true) (acc : Nat) :
    digitsFrom? acc l = some (Nat.ofDigitChars 10 l acc) := by
  induction l generalizing acc with
  | nil => rw [Nat.ofDigitChars_nil]; rfl
  | cons c l ih =>
    have hc : digit? c = some (c.toNat - '0'.toNat) := if_pos (isDigit_iff.mp (h c (by simp)))
    unfold digitsFrom?
    rw [hc, Option.bind_some, ih fun d hd => h d (by simp [hd]), Nat.ofDigitChars_cons]

/-- What is read digit by digit has nothing but digits. -/
theorem isDigit_of_digitsFrom? {l : List Char} {acc n : Nat} (h : digitsFrom? acc l = some n) :
    ∀ c ∈ l, c.isDigit = true := by
  induction l generalizing acc with
  | nil => exact fun c hc => absurd hc List.not_mem_nil
  | cons d l ih =>
    unfold digitsFrom? at h
    obtain ⟨k, hk, hrest⟩ := Option.bind_eq_some_iff.mp h
    have hd : '0' ≤ d ∧ d ≤ '9' := by
      by_cases hin : '0' ≤ d ∧ d ≤ '9'
      · exact hin
      · rw [digit?, if_neg hin] at hk
        exact nomatch hk
    exact List.forall_mem_cons.mpr ⟨isDigit_iff.mpr hd, ih hrest⟩

/-- Exactly one or more digits are read as the number that they stand for. -/
theorem digits?_eq_some_iff {l : List Char} {n : Nat} : digits? l = some n ↔
    l ≠ [] ∧ (∀ c ∈ l, c.isDigit = true) ∧ n = Nat.ofDigitChars 10 l 0 := by
  cases l with
  | nil => exact ⟨fun h => (nomatch h), fun h => absurd rfl h.1⟩
  | cons c l =>
    show digitsFrom? 0 (c :: l) = some n ↔ _
    constructor
    · intro h
      have hdigits := isDigit_of_digitsFrom? h
      rw [digitsFrom?_of_isDigit hdigits] at h
      exact ⟨List.cons_ne_nil c l, hdigits, (Option.some.inj h).symm⟩
    · rintro ⟨-, hdigits, rfl⟩
      exact digitsFrom?_of_isDigit hdigits 0

theorem toList_toString (n : Nat) : (toString n).toList = Nat.toDigits 10 n := by
  rw [Nat.toString_eq_repr, Nat.toList_repr]

/-- A number is written with digits alone. -/
theorem isDigit_of_mem_toString {n : Nat} {c : Char} (h : c ∈ (toString n).toList) :
    c.isDigit = true := by
  rw [toList_toString] at h
  exact Nat.isDigit_of_mem_toDigits (by decide) (by decide) h

/-- **The digits of a number are read as the number.** -/
theorem digits?_toString (n : Nat) : digits? (toString n).toList = some n := by
  have hread := digitsFrom?_of_isDigit (fun c hc => isDigit_of_mem_toString (n := n) hc) 0
  rw [toList_toString] at hread ⊢
  rw [Nat.ofDigitChars_ten_toDigits] at hread
  cases hdigits : Nat.toDigits 10 n with
  | nil => exact absurd hdigits Nat.toDigits_ne_nil
  | cons c rest =>
    rw [hdigits] at hread
    exact hread

/-- **A number that fits is read from its digits.** -/
theorem int64?_toString {n : Nat} (h : fitsInt64 n = true) : int64? (toString n) = some (n : Int) := by
  have hread := digits?_toString n
  have hdigit := fun c hc => isDigit_of_mem_toString (n := n) (c := c) hc
  have hfits : (some (n : Int)).filter fitsInt64 = some (n : Int) := by
    rw [Option.filter_some, if_pos h]
  unfold int64?
  simp only
  generalize (toString n).toList = l at hread hdigit ⊢
  -- The first character is a digit, so it is no sign.
  split
  · next rest => exact absurd (hdigit '+' (by simp)) (by decide)
  · next rest => exact absurd (hdigit '-' (by simp)) (by decide)
  · rw [hread]
    exact hfits

/-- A numeral without a minus sign: one or more digits, of which leading ones may be zero, after a
plus sign or nothing. -/
def Numeral (s : String) (n : Nat) : Prop :=
  ∃ digits, (s.toList = digits ∨ s.toList = '+' :: digits) ∧ digits ≠ [] ∧
    (∀ c ∈ digits, c.isDigit = true) ∧ n = Nat.ofDigitChars 10 digits 0

/-- **What is read as a number is a numeral of it**, and the number is in the range asked for. -/
theorem natUpTo?_eq_some_iff {max n : Nat} {s : String} :
    natUpTo? max s = some n ↔ Numeral s n ∧ n ≤ max := by
  unfold natUpTo? Numeral
  simp only [Option.filter_eq_some_iff, digits?_eq_some_iff, decide_eq_true_eq]
  refine and_congr_left fun _ => ?_
  generalize s.toList = l
  constructor
  · intro h
    split at h
    · next rest => exact ⟨rest, .inr rfl, h⟩
    · exact ⟨l, .inl rfl, h⟩
  · rintro ⟨digits, rfl | rfl, hne, hdigits, hn⟩
    · split
      -- A plus sign is no digit.
      · exact absurd (hdigits '+' List.mem_cons_self) (by decide)
      · exact ⟨hne, hdigits, hn⟩
    · exact ⟨hne, hdigits, hn⟩

/-- The digits of a number are a numeral of it. -/
theorem numeral_toString (n : Nat) : Numeral (toString n) n :=
  ⟨_, .inl rfl, digits?_eq_some_iff.mp (digits?_toString n)⟩

end Depot.Text
