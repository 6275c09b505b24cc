import Depot.Text.Blank
import Depot.Text.Cut
import Mathlib.Data.List.DropRight
import Mathlib.Data.List.TakeWhile

/-!
# Text that goes on

What cutting and trimming make of a text to which another one is appended, by what they make of the
text itself.

Headlines
* **`cut_append`**, **`pieces_append`**: the text that follows goes to the last part.
* **`pieces_eq_iff`**: a text falls into the parts that it is joined of.
* **`stripWhile_append`**: nothing is trimmed off inside; **`stripWhile_stripWhile`**: trimming once
  is enough.
-/

namespace Depot.Text

variable {sep : Char} {l : List Char}

/-- What stands before the first separator is not changed by what follows. -/
theorem cut_append {before after : List Char} (h : cut sep l = some (before, after))
    (k : List Char) : cut sep (l ++ k) = some (before, after ++ k) := by
  obtain ⟨rfl, hbefore⟩ := cut_eq_some_iff.mp h
  refine cut_eq_some_iff.mpr ⟨?_, hbefore⟩
  rw [List.append_assoc, List.cons_append]

theorem cut_eq_none_iff : cut sep l = none ↔ sep ∉ l := by
  induction l with
  | nil => simp [cut]
  | cons c l ih =>
    by_cases hc : c = sep
    · simp [cut, hc]
    · simp [cut, hc, ih, Ne.symm hc]

/-- At a separator the pieces of a text are those before it and those after it. -/
theorem pieces_append (sep : Char) (l k : List Char) :
    pieces sep (l ++ sep :: k) = pieces sep l ++ pieces sep k := by
  induction l with
  | nil => simp [pieces]
  | cons c l ih =>
    rw [List.cons_append]
    by_cases hc : c = sep
    · simp [pieces, hc, ih]
    · simp only [pieces, hc, if_false, ih]
      cases hpieces : pieces sep l with
      | nil => exact absurd hpieces (pieces_ne_nil sep l)
      | cons piece rest => rfl

theorem pieces_of_not_mem (h : sep ∉ l) : pieces sep l = [l] := by
  induction l with
  | nil => rfl
  | cons c l ih =>
    obtain ⟨hc, hl⟩ := not_or.mp fun hmem => h (List.mem_cons.mpr hmem)
    unfold pieces
    rw [if_neg (Ne.symm hc), ih hl]

/-- Texts without the separator are the pieces of what they are joined to with it. -/
theorem pieces_intercalate {parts : List (List Char)} (hne : parts ≠ [])
    (h : ∀ part ∈ parts, sep ∉ part) : pieces sep (List.intercalate [sep] parts) = parts := by
  induction parts with
  | nil => exact absurd rfl hne
  | cons part parts ih =>
    have hpart := pieces_of_not_mem (h part List.mem_cons_self)
    by_cases hlast : parts = []
    · rw [hlast, List.intercalate_singleton, hpart]
    · rw [List.intercalate_cons_of_ne_nil hlast, List.append_assoc, List.singleton_append,
        pieces_append, hpart, ih hlast fun p hp => h p (List.mem_cons_of_mem part hp)]
      rfl

/-- The separator is in none of the pieces. -/
theorem not_mem_of_mem_pieces {piece : List Char} (h : piece ∈ pieces sep l) : sep ∉ piece := by
  induction l generalizing piece with
  | nil => simp_all [pieces]
  | cons c l ih =>
    by_cases hc : c = sep
    · simp only [pieces, hc, if_true, List.mem_cons] at h
      rcases h with rfl | h
      · exact List.not_mem_nil
      · exact ih h
    · simp only [pieces, hc, if_false] at h
      cases hpieces : pieces sep l with
      | nil => exact absurd hpieces (pieces_ne_nil sep l)
      | cons first rest =>
        simp only [hpieces, List.mem_cons] at h ih
        rcases h with rfl | h
        · exact List.not_mem_cons_of_ne_of_not_mem (Ne.symm hc) (ih (.inl rfl))
        · exact ih (.inr h)

/-- **A text falls into the parts that it is joined of**, in one way only. -/
theorem pieces_eq_iff {parts : List (List Char)} (hne : parts ≠ []) : pieces sep l = parts ↔
    l = List.intercalate [sep] parts ∧ ∀ part ∈ parts, sep ∉ part := by
  constructor
  · rintro rfl
    exact ⟨(intercalate_pieces sep l).symm, fun _ hpart => not_mem_of_mem_pieces hpart⟩
  · rintro ⟨rfl, hparts⟩
    exact pieces_intercalate hne hparts

/-- Without the separators that join them, texts that do not hold it follow each other. -/
theorem filter_intercalate {parts : List (List Char)} (h : ∀ part ∈ parts, sep ∉ part) :
    (List.intercalate [sep] parts).filter (· != sep) = parts.flatten := by
  induction parts with
  | nil => rfl
  | cons part parts ih =>
    have hpart : part.filter (· != sep) = part := by
      refine List.filter_eq_self.mpr fun c hc => bne_iff_ne.mpr ?_
      rintro rfl
      exact h part List.mem_cons_self hc
    have hrest := ih fun p hp => h p (List.mem_cons_of_mem part hp)
    by_cases hlast : parts = []
    · rw [hlast, List.intercalate_singleton, hpart, List.flatten_singleton]
    · rw [List.intercalate_cons_of_ne_nil hlast, List.append_assoc, List.filter_append, hpart,
        List.filter_append, hrest, List.flatten_cons]
      simp

/-! ### Ends -/

section

variable {α : Type} {p : α → Bool} {l k : List α}

/-- What is left of a list from some member on ends as the list does. -/
theorem getLast?_dropWhile (h : l.dropWhile p ≠ []) : (l.dropWhile p).getLast? = l.getLast? := by
  obtain ⟨before, hbefore⟩ := l.dropWhile_suffix p
  conv => rhs; rw [← hbefore, List.getLast?_append]
  rw [List.getLast?_eq_some_getLast h, Option.some_or]

/-- Nothing that follows is dropped where something is left already. -/
theorem dropWhile_append_of_ne_nil (h : l.dropWhile p ≠ []) (k : List α) :
    (l ++ k).dropWhile p = l.dropWhile p ++ k := by
  rw [List.dropWhile_append, if_neg (by simpa using h)]

theorem dropWhile_ne_nil_of_mem {a : α} (ha : a ∈ l) (hp : p a = false) : l.dropWhile p ≠ [] := by
  intro h
  exact absurd (List.dropWhile_eq_nil_iff.mp h a ha) (by simp [hp])

theorem takeWhile_append_of_mem {a : α} (ha : a ∈ l) (hp : p a = false) (k : List α) :
    (l ++ k).takeWhile p = l.takeWhile p := by
  rw [List.takeWhile_append, if_neg]
  intro hlength
  have hall := List.takeWhile_eq_self_iff.mp (List.takeWhile_prefix p |>.eq_of_length hlength)
  exact absurd (hall a ha) (by simp [hp])

/-- Nothing is trimmed off a list all of whose members are to stay. -/
theorem stripWhile_eq_self (h : ∀ a ∈ l, p a = false) : stripWhile p l = l := by
  have hdrop : ∀ k : List α, (∀ a ∈ k, p a = false) → k.dropWhile p = k := by
    intro k hk
    cases k with
    | nil => rfl
    | cons a k => exact List.dropWhile_cons_of_neg (by simp [hk a List.mem_cons_self])
  unfold stripWhile
  rw [hdrop l h, hdrop _ fun a ha => h a (List.mem_reverse.mp ha), List.reverse_reverse]

/-- A list whose last member is to stay loses members at its start only. -/
theorem stripWhile_of_getLast? {a : α} (ha : l.getLast? = some a) (hp : p a = false) :
    stripWhile p l = l.dropWhile p := by
  have hleft := dropWhile_ne_nil_of_mem (List.mem_of_getLast? ha) hp
  have hlast := getLast?_dropWhile hleft
  unfold stripWhile
  rw [ha, ← List.head?_reverse] at hlast
  cases hreverse : (l.dropWhile p).reverse with
  | nil => exact absurd (List.reverse_eq_nil_iff.mp hreverse) hleft
  | cons b rest =>
    rw [hreverse] at hlast
    obtain rfl := Option.some.inj hlast
    rw [List.dropWhile_cons_of_neg (by simp [hp]), ← hreverse, List.reverse_reverse]

/-- What is left of a list that is trimmed has nothing more to trim. -/
theorem stripWhile_stripWhile (p : α → Bool) (l : List α) :
    stripWhile p (stripWhile p l) = stripWhile p l := by
  have hstart : (stripWhile p l).dropWhile p = stripWhile p l := by
    have hprefix : stripWhile p l <+: l.dropWhile p := List.rdropWhile_prefix p _
    cases hleft : stripWhile p l with
    | nil => rfl
    | cons a rest =>
      rw [hleft] at hprefix
      obtain ⟨after, hafter⟩ := hprefix
      -- The first member is that of the list without its start, which is to stay.
      have hhead : (l.dropWhile p).head? = some a := by
        rw [← hafter]
        rfl
      have hstays := List.head?_dropWhile_not p l
      rw [hhead] at hstays
      exact List.dropWhile_cons_of_neg (by simpa using hstays)
  calc stripWhile p (stripWhile p l) = ((stripWhile p l).dropWhile p).rdropWhile p := rfl
    _ = ((l.dropWhile p).rdropWhile p).rdropWhile p := by rw [hstart]; rfl
    _ = stripWhile p l := List.rdropWhile_idempotent p _

/-- What follows a member that is to stay stays, if all of it is to. -/
theorem stripWhile_append {a : α} (ha : l.getLast? = some a) (hp : p a = false)
    (hk : ∀ b ∈ k, p b = false) : stripWhile p (l ++ k) = stripWhile p l ++ k := by
  have hleft := dropWhile_ne_nil_of_mem (List.mem_of_getLast? ha) hp
  have hend : ∃ b, (l ++ k).getLast? = some b ∧ p b = false := by
    cases hlast : k.getLast? with
    | none => exact ⟨a, by rw [List.getLast?_append, hlast, Option.none_or, ha], hp⟩
    | some b =>
      refine ⟨b, ?_, hk b (List.mem_of_getLast? hlast)⟩
      rw [List.getLast?_append, hlast, Option.some_or]
  obtain ⟨b, hb, hpb⟩ := hend
  rw [stripWhile_of_getLast? ha hp, stripWhile_of_getLast? hb hpb, dropWhile_append_of_ne_nil hleft]

end

end Depot.Text
