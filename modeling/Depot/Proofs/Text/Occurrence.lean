import Depot.Text.Cut
import Mathlib.Data.List.Infix

/-!
# Texts in texts

Where a text occurs in another, and where it is cut there.

Headlines
* **`occurs_iff`**: the search for a text finds it just if it is there.
* **`infix_of_mem_pieces`**: the pieces of a text occur in it.
* **`cutText_append`**: a text that does not overlap itself is found where it is written, if it is
  not written before.
-/

namespace Depot.Text

variable {sep part whole before : List Char} {c : Char}

/-- **The search for a text finds it just if it is there.** -/
theorem occurs_iff : occurs part whole = true ↔ part <:+: whole := by
  unfold occurs
  induction whole with
  | nil =>
    rw [List.infix_nil]
    cases part <;> simp [cutText]
  | cons c whole ih =>
    rw [List.infix_cons_iff, ← List.isPrefixOf_iff_prefix, ← ih]
    by_cases h : part.isPrefixOf (c :: whole) = true
    · simp [cutText, h]
    · simp [cutText, h]

/-! ### Pieces -/

theorem infix_intercalate {piece : List Char} {parts : List (List Char)} (h : piece ∈ parts)
    (sep : List Char) : piece <:+: List.intercalate sep parts := by
  induction parts with
  | nil => exact absurd h List.not_mem_nil
  | cons part parts ih =>
    by_cases hlast : parts = []
    · rw [hlast, List.mem_singleton] at h
      rw [hlast, List.intercalate_singleton, h]
    · rw [List.intercalate_cons_of_ne_nil hlast, List.append_assoc]
      rcases List.mem_cons.mp h with rfl | h
      · exact (List.prefix_append piece _).isInfix
      · exact (ih h).trans (List.suffix_append_of_suffix (List.suffix_append sep _)).isInfix

/-- **The pieces of a text occur in it.** -/
theorem infix_of_mem_pieces {c : Char} {piece : List Char} (h : piece ∈ pieces c whole) :
    piece <:+: whole := by
  have hin := infix_intercalate h [c]
  rwa [intercalate_pieces] at hin

/-! ### Cutting -/

/-- A separator whose first character does not come again in it does not begin before the place
where it is written. -/
theorem not_prefix_append (hc : c ∉ sep) (hne : before ≠ []) (h : ¬ c :: sep <:+: before)
    (after : List Char) : ¬ c :: sep <+: before ++ (c :: sep ++ after) := by
  intro hprefix
  rcases List.prefix_or_prefix_of_prefix hprefix (List.prefix_append before _) with hin | hover
  · exact h hin.isInfix
  · obtain ⟨reach, hreach⟩ := hover
    -- What of the separator reaches beyond `before` begins with the separator's first character.
    have hbegin : reach <+: c :: sep ++ after :=
      (List.prefix_append_right_inj before).mp (hreach ▸ hprefix)
    cases reach with
    | nil => exact h (by rw [← hreach, List.append_nil])
    | cons d reach =>
      obtain rfl : d = c := (List.cons_prefix_cons.mp hbegin).1
      cases before with
      | nil => exact hne rfl
      | cons b before =>
        obtain ⟨-, rfl⟩ := List.cons_eq_cons.mp hreach
        exact hc (by simp)

/-- **A text is cut at a separator that it does not have before**, if the separator does not overlap
itself. -/
theorem cutText_append (hc : c ∉ sep) (h : ¬ c :: sep <:+: before) (after : List Char) :
    cutText (c :: sep) (before ++ (c :: sep ++ after)) = some (before, after) := by
  induction before with
  | nil =>
    have hprefix : (c :: sep).isPrefixOf (c :: (sep ++ after)) = true :=
      List.isPrefixOf_iff_prefix.mpr (List.prefix_append (c :: sep) after)
    rw [List.nil_append, List.cons_append, cutText, if_pos hprefix]
    simp
  | cons b before ih =>
    have hprefix := not_prefix_append hc (List.cons_ne_nil b before) h after
    rw [← List.isPrefixOf_iff_prefix] at hprefix
    rw [List.cons_append] at hprefix ⊢
    rw [cutText, if_neg hprefix, ih fun hin => h (hin.trans (List.suffix_cons b before).isInfix)]
    rfl

end Depot.Text
