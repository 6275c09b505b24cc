import Depot.Proofs.Bytes.Percent
import Depot.Table

/-!
# Texts are in the order of their bytes

Texts are compared character by character. The UTF-8 form of a character is not the start of that of
another one, and the forms of two characters first differ in a byte that is smaller in the smaller
character. So comparing the bytes of texts compares the texts.

Headlines
* **`compare_utf8`**: texts compare as their bytes do.
* **`ascending_map_utf8`**: so texts ascend just if their bytes do.
-/

namespace Depot.Bytes

variable {c d : Char} {l m : List Char}

theorem compare_cons_eq_lt {x y : UInt8} {b b' : Bytes} : compare (x :: b) (y :: b') = .lt ↔
    x.toNat < y.toNat ∨ x.toNat = y.toNat ∧ compare b b' = .lt := by
  rw [List.compare_cons_cons, Ordering.then_eq_lt, Std.compare_eq_lt, UInt8.lt_iff_toNat_lt,
    Std.LawfulEqCmp.compare_eq_iff_eq, UInt8.toNat_inj]

/-- What two byte strings begin with alike does not count. -/
theorem compare_append_left (p b b' : Bytes) : compare (p ++ b) (p ++ b') = compare b b' := by
  induction p with
  | nil => rfl
  | cons x p ih =>
    have hself : compare x x = .eq := Std.ReflCmp.compare_self
    rw [List.cons_append, List.cons_append, List.compare_cons_cons, hself, Ordering.eq_then, ih]

/-- The bytes of a smaller character come first, whatever follows. -/
theorem compare_utf8EncodeChar (h : c < d) (b b' : Bytes) :
    compare (String.utf8EncodeChar c ++ b) (String.utf8EncodeChar d ++ b') = .lt := by
  have hlt : c.val.toNat < d.val.toNat := h
  have hmost : d.val.toNat < 0x110000 := by
    rcases d.valid with h | h <;> omega
  unfold String.utf8EncodeChar
  simp only
  generalize c.val.toNat = m at hlt
  generalize d.val.toNat = n at hlt hmost
  -- Each character has one to four bytes; their digits to the base 64 are compared in turn.
  split_ifs
  all_goals
    simp only [List.cons_append, List.nil_append, compare_cons_eq_lt, UInt8.toNat_ofNat']
    simp (disch := omega) only [Nat.mod_eq_of_lt]
    omega

/-- The bytes of a smaller text come first. -/
theorem compare_flatMap_utf8EncodeChar (h : l < m) :
    compare (l.flatMap String.utf8EncodeChar) (m.flatMap String.utf8EncodeChar) = .lt := by
  induction l generalizing m with
  | nil =>
    cases m with
    | nil => exact absurd h (List.lt_irrefl [])
    | cons d m =>
      have hne : String.utf8EncodeChar d ≠ [] := String.utf8EncodeChar_ne_nil
      rw [List.flatMap_cons, List.flatMap_nil]
      cases hbytes : String.utf8EncodeChar d with
      | nil => exact absurd hbytes hne
      | cons x rest => exact List.compare_nil_cons
  | cons c l ih =>
    cases m with
    | nil => exact absurd h (List.not_lt_nil _)
    | cons d m =>
      rw [List.flatMap_cons, List.flatMap_cons]
      rcases List.cons_lt_cons_iff.mp h with hlt | ⟨rfl, hrest⟩
      · exact compare_utf8EncodeChar hlt _ _
      · rw [compare_append_left]
        exact ih hrest

/-- **Texts compare as their bytes do.** -/
theorem compare_utf8 (s t : String) : compare (utf8 s) (utf8 t) = compare s t := by
  have hlt : ∀ {s t : String}, compare s t = .lt → compare (utf8 s) (utf8 t) = .lt := by
    intro s t h
    have hless : s < t := compareOfLessAndEq_eq_lt.mp h
    rw [← s.ofList_toList, ← t.ofList_toList, utf8_ofList, utf8_ofList]
    exact compare_flatMap_utf8EncodeChar hless
  cases h : compare s t with
  | lt => exact hlt h
  | eq =>
    rw [Std.LawfulEqCmp.eq_of_compare h]
    exact Std.ReflCmp.compare_self
  | gt => exact Std.OrientedCmp.gt_of_lt (hlt (Std.OrientedCmp.lt_of_gt h))

/-- **Texts ascend just if their bytes do.** -/
theorem ascending_map_utf8 {l : List String} : Ascending (l.map utf8) ↔ Ascending l := by
  unfold Ascending
  rw [List.pairwise_map]
  simp only [compare_utf8]

end Depot.Bytes
