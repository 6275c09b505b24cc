/-!
# Cutting a text at a character
-/

namespace Depot.Text

/-- The parts before and after the first occurrence of a character. -/
def cut (sep : Char) : List Char → Option (List Char × List Char)
  | [] => none
  | c :: rest =>
    if c = sep then some ([], rest)
    else (cut sep rest).map fun (before, after) => (c :: before, after)

/-- The parts between the occurrences of a character: one more than there are occurrences. -/
def pieces (sep : Char) : List Char → List (List Char)
  | [] => [[]]
  | c :: rest =>
    if c = sep then [] :: pieces sep rest
    else
      match pieces sep rest with
      | p :: ps => (c :: p) :: ps
      | [] => [[c]]

/-- The parts before and after the first occurrence of a text. -/
def cutText (sep : List Char) : List Char → Option (List Char × List Char)
  | [] => if sep.isEmpty then some ([], []) else none
  | c :: rest =>
    if sep.isPrefixOf (c :: rest) then some ([], (c :: rest).drop sep.length)
    else (cutText sep rest).map fun (before, after) => (c :: before, after)

/-- Whether a text occurs in another. -/
def occurs (part whole : List Char) : Bool := (cutText part whole).isSome

/-- The parts that `cut` gives make up the text, and the first one does not hold the separator. -/
theorem cut_eq_some_iff {sep : Char} {l before after : List Char} :
    cut sep l = some (before, after) ↔ l = before ++ sep :: after ∧ sep ∉ before := by
  induction l generalizing before after with
  | nil => simp [cut]
  | cons c rest ih =>
    by_cases h : c = sep
    · subst h
      cases before with
      | nil => simp [cut]
      | cons b bs =>
        simp only [cut, if_true, Option.some.injEq, Prod.mk.injEq, List.cons_append,
          List.cons.injEq, List.mem_cons]
        constructor
        · rintro ⟨h, _⟩; cases h
        · rintro ⟨⟨rfl, _⟩, hn⟩; exact absurd (Or.inl rfl) hn
    · cases before with
      | nil => simp [cut, h]
      | cons b bs =>
        simp only [cut, h, if_false, Option.map_eq_some_iff, Prod.mk.injEq, List.cons.injEq,
          List.cons_append, List.mem_cons, Prod.exists]
        constructor
        · rintro ⟨x, y, hxy, ⟨rfl, rfl⟩, rfl⟩
          have := ih.1 hxy
          exact ⟨⟨rfl, this.1⟩, fun hm => hm.elim (fun e => h e.symm) this.2⟩
        · rintro ⟨⟨rfl, hl⟩, hn⟩
          exact ⟨bs, after, ih.2 ⟨hl, fun hm => hn (Or.inr hm)⟩, ⟨rfl, rfl⟩, rfl⟩

theorem pieces_ne_nil (sep : Char) (l : List Char) : pieces sep l ≠ [] := by
  cases l with
  | nil => simp [pieces]
  | cons c rest =>
    by_cases h : c = sep
    · simp [pieces, h]
    · simp only [pieces, h, if_false]
      split <;> simp

/-- Written with the separator between them, the pieces give the text again. -/
theorem intercalate_pieces (sep : Char) (l : List Char) :
    List.intercalate [sep] (pieces sep l) = l := by
  induction l with
  | nil => simp [pieces, List.intercalate]
  | cons c rest ih =>
    by_cases h : c = sep
    · subst h
      have hne := pieces_ne_nil c rest
      cases hp : pieces c rest with
      | nil => exact absurd hp hne
      | cons p ps => rw [hp] at ih; simp [pieces, hp, List.intercalate] at ih ⊢; exact ih
    · have hne := pieces_ne_nil sep rest
      cases hp : pieces sep rest with
      | nil => exact absurd hp hne
      | cons p ps =>
        rw [hp] at ih
        cases ps with
        | nil => simp [pieces, h, hp, List.intercalate] at ih ⊢; exact ih
        | cons q qs => simp [pieces, h, hp, List.intercalate] at ih ⊢; exact ih

end Depot.Text
