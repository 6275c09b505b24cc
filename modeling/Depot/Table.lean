/-!
# Tables

A finite map whose entries are listed in strictly ascending order of their keys, so that two
tables with the same bindings are equal and every listing has one order.

Headlines
* **`get?_insert`**, **`get?_erase`**: what an update does to the view `get?`.
* **`ext_get?`**: a table is determined by that view.
* **`mem_keys_iff`**, **`keys_ascending`**: the listed keys are the bound ones, each once.
-/

namespace Depot

/-- Each member lies strictly before every later one. -/
def Ascending {κ : Type} [Ord κ] (keys : List κ) : Prop :=
  keys.Pairwise fun a b => compare a b = .lt

instance {κ : Type} [Ord κ] (keys : List κ) : Decidable (Ascending keys) :=
  inferInstanceAs (Decidable (keys.Pairwise _))

/-- A finite map with entries in ascending order of their keys. -/
structure Table (κ α : Type) [Ord κ] where
  /-- The bindings. -/
  entries : List (κ × α)
  /-- No key occurs twice, and smaller keys come first. -/
  ascending : Ascending (entries.map Prod.fst)
deriving DecidableEq

namespace Table

variable {κ α : Type} [Ord κ]

/-- The table without entries. -/
def empty : Table κ α := ⟨[], .nil⟩

instance : EmptyCollection (Table κ α) := ⟨empty⟩

instance : Inhabited (Table κ α) := ⟨empty⟩

/-- The value listed under a key. -/
def find? (k : κ) : List (κ × α) → Option α
  | [] => none
  | (k', a) :: rest => if compare k k' = .eq then some a else find? k rest

/-- The value bound to a key. -/
def get? (t : Table κ α) (k : κ) : Option α := find? k t.entries

/-- Whether a key is bound. -/
def contains (t : Table κ α) (k : κ) : Bool := (t.get? k).isSome

/-- The keys, ascending. -/
def keys (t : Table κ α) : List κ := t.entries.map Prod.fst

/-- The values in the order of their keys. -/
def values (t : Table κ α) : List α := t.entries.map Prod.snd

/-- The number of entries. -/
def size (t : Table κ α) : Nat := t.entries.length

/-- Puts a binding at its place in the order, in the stead of one with an equal key. -/
def place (k : κ) (a : α) : List (κ × α) → List (κ × α)
  | [] => [(k, a)]
  | (k', a') :: rest =>
    match compare k k' with
    | .lt => (k, a) :: (k', a') :: rest
    | .eq => (k, a) :: rest
    | .gt => (k', a') :: place k a rest

/-- Leaves out the binding of a key. -/
def without (k : κ) : List (κ × α) → List (κ × α)
  | [] => []
  | (k', a') :: rest =>
    if compare k k' = .eq then rest else (k', a') :: without k rest

theorem keys_without_sublist (k : κ) (l : List (κ × α)) :
    (without k l).map Prod.fst |>.Sublist (l.map Prod.fst) := by
  induction l with
  | nil => exact .slnil
  | cons e rest ih =>
    obtain ⟨k', a'⟩ := e
    by_cases h : compare k k' = .eq
    · simp [without, h]
    · simpa [without, h] using ih

theorem mem_keys_place [Std.LawfulEqOrd κ] {k x : κ} {a : α} {l : List (κ × α)} :
    x ∈ (place k a l).map Prod.fst ↔ x = k ∨ x ∈ l.map Prod.fst := by
  induction l with
  | nil => simp [place]
  | cons e rest ih =>
    obtain ⟨k', a'⟩ := e
    cases h : compare k k' with
    | lt => simp [place, h]
    | eq =>
      have : k = k' := Std.LawfulEqOrd.eq_of_compare h
      subst this
      simp [place]
    | gt =>
      simp only [place, h, List.map_cons, List.mem_cons, ih]
      exact or_left_comm

theorem ascending_place [Std.TransOrd κ] [Std.LawfulEqOrd κ] (k : κ) (a : α) {l : List (κ × α)}
    (hl : Ascending (l.map Prod.fst)) : Ascending ((place k a l).map Prod.fst) := by
  induction l with
  | nil => simp [place, Ascending]
  | cons e rest ih =>
    obtain ⟨k', a'⟩ := e
    have hl' := List.pairwise_cons.1 hl
    cases h : compare k k' with
    | lt =>
      simp only [place, h, List.map_cons]
      refine List.pairwise_cons.2 ⟨fun x hx => ?_, hl⟩
      rcases List.mem_cons.1 hx with rfl | hx
      · exact h
      · exact Std.TransCmp.lt_trans h (hl'.1 x hx)
    | eq =>
      have : k = k' := Std.LawfulEqOrd.eq_of_compare h
      subst this
      simpa [place, h] using hl
    | gt =>
      simp only [place, h, List.map_cons]
      refine List.pairwise_cons.2 ⟨fun x hx => ?_, ih hl'.2⟩
      rcases mem_keys_place.1 hx with rfl | hx
      · exact Std.OrientedCmp.lt_of_gt h
      · exact hl'.1 x hx

/-- Binds a key to a value, in the stead of its former one. -/
def insert [Std.TransOrd κ] [Std.LawfulEqOrd κ] (t : Table κ α) (k : κ) (a : α) : Table κ α :=
  ⟨place k a t.entries, ascending_place k a t.ascending⟩

theorem ascending_without (k : κ) {l : List (κ × α)}
    (hl : Ascending (l.map Prod.fst)) : Ascending ((without k l).map Prod.fst) :=
  List.Pairwise.sublist (keys_without_sublist k l) hl

/-- Removes the binding of a key. -/
def erase (t : Table κ α) (k : κ) : Table κ α :=
  ⟨without k t.entries, ascending_without k t.ascending⟩

/-- Changes the value of a key that is bound. -/
def modify [Std.TransOrd κ] [Std.LawfulEqOrd κ] (t : Table κ α) (k : κ) (f : α → α) : Table κ α :=
  match t.get? k with
  | some a => t.insert k (f a)
  | none => t

/-- The table of a list of bindings, of which the last one for a key counts. -/
def ofList [Std.TransOrd κ] [Std.LawfulEqOrd κ] (l : List (κ × α)) : Table κ α :=
  l.foldl (fun t e => t.insert e.1 e.2) empty

/-! ### The view `get?` -/

@[simp] theorem get?_empty (k : κ) : (empty : Table κ α).get? k = none := rfl

theorem find?_eq_none {k : κ} {l : List (κ × α)} [Std.LawfulEqOrd κ]
    (h : k ∉ l.map Prod.fst) : find? k l = none := by
  induction l with
  | nil => rfl
  | cons e rest ih =>
    obtain ⟨k', a'⟩ := e
    simp only [List.map_cons, List.mem_cons, not_or] at h
    have hk : compare k k' ≠ .eq := fun he => h.1 (Std.LawfulEqOrd.eq_of_compare he)
    simp [find?, hk, ih h.2]

theorem find?_place [DecidableEq κ] [Std.LawfulEqOrd κ] (k k' : κ) (a : α) (l : List (κ × α)) :
    find? k' (place k a l) = if k' = k then some a else find? k' l := by
  induction l with
  | nil =>
    by_cases h : k' = k
    · subst h; simp [place, find?]
    · have : compare k' k ≠ .eq := fun he => h (Std.LawfulEqOrd.eq_of_compare he)
      simp [place, find?, this, h]
  | cons e rest ih =>
    obtain ⟨x, b⟩ := e
    by_cases h : k' = k
    · subst h
      cases hx : compare k' x <;> simp [place, hx, find?] at ih ⊢
      exact ih
    · have hk : compare k' k ≠ .eq := fun he => h (Std.LawfulEqOrd.eq_of_compare he)
      cases hx : compare k x with
      | lt => simp [place, hx, find?, hk, h]
      | eq =>
        have : k = x := Std.LawfulEqOrd.eq_of_compare hx
        subst this
        simp [place, find?, hk, h]
      | gt => simp [place, hx, find?, ih, h]

@[simp] theorem get?_insert [DecidableEq κ] [Std.TransOrd κ] [Std.LawfulEqOrd κ]
    (t : Table κ α) (k k' : κ) (a : α) :
    (t.insert k a).get? k' = if k' = k then some a else t.get? k' :=
  find?_place k k' a t.entries

theorem find?_without [DecidableEq κ] [Std.LawfulEqOrd κ] (k k' : κ) {l : List (κ × α)}
    (hl : Ascending (l.map Prod.fst)) :
    find? k' (without k l) = if k' = k then none else find? k' l := by
  induction l with
  | nil => simp [without, find?]
  | cons e rest ih =>
    obtain ⟨x, b⟩ := e
    have hl' := List.pairwise_cons.1 hl
    by_cases hx : compare k x = .eq
    · have : k = x := Std.LawfulEqOrd.eq_of_compare hx
      subst this
      by_cases h : k' = k
      · subst h
        have : k' ∉ rest.map Prod.fst := fun hm => by
          have := hl'.1 k' hm
          simp at this
        simp [without, find?_eq_none this]
      · have hk : compare k' k ≠ .eq := fun he => h (Std.LawfulEqOrd.eq_of_compare he)
        simp [without, find?, hk, h]
    · by_cases h : k' = k
      · subst h
        simp [without, find?, hx, ih hl'.2]
      · simp [without, find?, hx, ih hl'.2, h]

@[simp] theorem get?_erase [DecidableEq κ] [Std.LawfulEqOrd κ] (t : Table κ α) (k k' : κ) :
    (t.erase k).get? k' = if k' = k then none else t.get? k' :=
  find?_without k k' t.ascending

@[simp] theorem get?_modify [DecidableEq κ] [Std.TransOrd κ] [Std.LawfulEqOrd κ]
    (t : Table κ α) (k k' : κ) (f : α → α) :
    (t.modify k f).get? k' = if k' = k then (t.get? k').map f else t.get? k' := by
  unfold modify
  cases h : t.get? k with
  | none => by_cases hk : k' = k <;> simp [hk, h]
  | some a => by_cases hk : k' = k <;> simp [hk, h]

theorem find?_isSome [DecidableEq κ] [Std.LawfulEqOrd κ] {k : κ} {l : List (κ × α)} :
    (find? k l).isSome ↔ k ∈ l.map Prod.fst := by
  induction l with
  | nil => simp [find?]
  | cons e rest ih =>
    obtain ⟨k', a'⟩ := e
    by_cases h : k = k'
    · subst h; simp [find?]
    · have hk : compare k k' ≠ .eq := fun he => h (Std.LawfulEqOrd.eq_of_compare he)
      simp only [find?, hk, if_false, List.map_cons, List.mem_cons, h, false_or]
      exact ih

/-- The keys listed are the bound ones. -/
theorem mem_keys_iff [DecidableEq κ] [Std.LawfulEqOrd κ] {t : Table κ α} {k : κ} :
    k ∈ t.keys ↔ (t.get? k).isSome := find?_isSome.symm

theorem keys_ascending (t : Table κ α) : Ascending t.keys := t.ascending

theorem find?_eq_some_iff [DecidableEq κ] [Std.LawfulEqOrd κ] {k : κ} {a : α} {l : List (κ × α)}
    (hl : Ascending (l.map Prod.fst)) : find? k l = some a ↔ (k, a) ∈ l := by
  induction l with
  | nil => simp [find?]
  | cons e rest ih =>
    obtain ⟨k', a'⟩ := e
    have hl' := List.pairwise_cons.1 hl
    by_cases h : k = k'
    · subst h
      have hn : ∀ b, (k, b) ∉ rest := fun b hb => by
        have := hl'.1 k (List.mem_map_of_mem (f := Prod.fst) hb)
        simp at this
      simp [find?, hn, eq_comm]
    · have hk : compare k k' ≠ .eq := fun he => h (Std.LawfulEqOrd.eq_of_compare he)
      simp only [find?, hk, if_false, ih hl'.2, List.mem_cons, Prod.mk.injEq, h, false_and,
        false_or]

theorem get?_eq_some_iff [DecidableEq κ] [Std.LawfulEqOrd κ] {t : Table κ α} {k : κ} {a : α} :
    t.get? k = some a ↔ (k, a) ∈ t.entries := find?_eq_some_iff t.ascending

/-- Two ascending lists with the same members are equal. -/
theorem entries_unique [DecidableEq κ] [Std.TransOrd κ] [Std.LawfulEqOrd κ] {l m : List (κ × α)}
    (hl : Ascending (l.map Prod.fst)) (hm : Ascending (m.map Prod.fst))
    (h : ∀ k, find? k l = find? k m) : l = m := by
  induction l generalizing m with
  | nil =>
    cases m with
    | nil => rfl
    | cons e _ => have := h e.1; simp [find?] at this
  | cons e l ih =>
    obtain ⟨k, a⟩ := e
    cases m with
    | nil => have := h k; simp [find?] at this
    | cons e' m =>
      obtain ⟨k', a'⟩ := e'
      have hl' := List.pairwise_cons.1 hl
      have hm' := List.pairwise_cons.1 hm
      have key : k = k' := by
        have h1 : (k, a) ∈ (k', a') :: m := by
          rw [← find?_eq_some_iff hm, ← h k]; simp [find?]
        have h2 : (k', a') ∈ (k, a) :: l := by
          rw [← find?_eq_some_iff hl, h k']; simp [find?]
        rcases List.mem_cons.1 h1 with he | h1
        · exact congrArg Prod.fst he
        · rcases List.mem_cons.1 h2 with he | h2
          · exact (congrArg Prod.fst he).symm
          · have c1 := hm'.1 k (List.mem_map_of_mem (f := Prod.fst) h1)
            have c2 := hl'.1 k' (List.mem_map_of_mem (f := Prod.fst) h2)
            have := Std.TransCmp.lt_trans c1 c2
            simp at this
      subst key
      have val : a = a' := by have := h k; simpa [find?] using this
      subst val
      refine congrArg _ (ih hl'.2 hm'.2 fun x => ?_)
      have hx := h x
      by_cases hxk : compare x k = .eq
      · have : x = k := Std.LawfulEqOrd.eq_of_compare hxk
        subst this
        have n1 : x ∉ l.map Prod.fst := fun hi => by have := hl'.1 x hi; simp at this
        have n2 : x ∉ m.map Prod.fst := fun hi => by have := hm'.1 x hi; simp at this
        rw [find?_eq_none n1, find?_eq_none n2]
      · simpa [find?, hxk] using hx

/-- A table is determined by the view `get?`. -/
theorem ext_get? [DecidableEq κ] [Std.TransOrd κ] [Std.LawfulEqOrd κ] {t u : Table κ α} (h : ∀ k, t.get? k = u.get? k) :
    t = u := by
  obtain ⟨l, hl⟩ := t
  obtain ⟨m, hm⟩ := u
  have : l = m := entries_unique hl hm h
  subst this
  rfl

end Table

/-- A finite set of names, listed in ascending order. -/
abbrev Names := Table String Unit

namespace Names

/-- Adds a name. -/
def add (s : Names) (name : String) : Names := s.insert name ()

/-- The set of the names in a list. -/
def ofList (names : List String) : Names := names.foldl add Table.empty

/-- The names of a set, ascending. -/
def toList (s : Names) : List String := s.keys

@[simp] theorem contains_add (s : Names) (name x : String) :
    (s.add name).contains x = (x == name || s.contains x) := by
  by_cases h : x = name <;> simp [Table.contains, add, h]

end Names

end Depot
