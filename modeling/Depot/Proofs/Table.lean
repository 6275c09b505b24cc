import Depot.Table

/-!
# Views and listings of tables

How a table with the same keys and other values is seen and listed, and which keys a listing of some
of the entries gives.

Headlines
* **`get?_mapEntries`**, **`eq_mapEntries_iff`**: a table is another one with its values replaced if
  it is so at every key.
* **`mem_filter_keys`**, **`ascending_filter`**: the keys of the entries with a property are those
  bound so, ascending.
-/

namespace Depot.Table

variable {κ α β : Type} [Ord κ]

/-- The keys of the entries with a property are ascending. -/
theorem ascending_filter (t : Table κ α) (p : κ × α → Bool) :
    Ascending ((t.entries.filter p).map Prod.fst) :=
  List.Pairwise.sublist (List.filter_sublist.map Prod.fst) t.ascending

theorem contains_iff {t : Table κ α} {k : κ} : t.contains k = true ↔ ∃ a, t.get? k = some a :=
  Option.isSome_iff_exists

theorem contains_eq_false {t : Table κ α} {k : κ} : t.contains k = false ↔ t.get? k = none := by
  unfold contains
  cases t.get? k <;> simp

/-- At most one entry has a key, the one that the key is bound by. -/
theorem filter_key [DecidableEq κ] [Std.LawfulEqOrd κ] (t : Table κ α) (k : κ) :
    t.entries.filter (fun e => e.1 == k) = ((t.get? k).map fun a => (k, a)).toList := by
  have hfind : ∀ l : List (κ × α), Ascending (l.map Prod.fst) →
      l.filter (fun e => e.1 == k) = ((find? k l).map fun a => (k, a)).toList := by
    intro l hl
    induction l with
    | nil => rfl
    | cons e rest ih =>
      obtain ⟨k', a⟩ := e
      have hl' := List.pairwise_cons.1 hl
      by_cases h : k' = k
      · subst h
        have hrest : find? k' rest = none := find?_eq_none fun hm => by
          simpa using hl'.1 k' hm
        simp [find?, ih hl'.2, hrest]
      · have hk : compare k k' ≠ .eq := fun he => h (Std.LawfulEqOrd.eq_of_compare he).symm
        simp [find?, hk, h, ih hl'.2]
  exact hfind t.entries t.ascending

/-- The table with the same keys and other values. -/
def mapEntries (f : κ → α → β) (t : Table κ α) : Table κ β :=
  ⟨t.entries.map fun e => (e.1, f e.1 e.2), by
    rw [List.map_map]
    exact t.ascending⟩

theorem entries_mapEntries (f : κ → α → β) (t : Table κ α) :
    (t.mapEntries f).entries = t.entries.map fun e => (e.1, f e.1 e.2) := rfl

section

variable [DecidableEq κ] [Std.LawfulEqOrd κ]

theorem mem_filter_keys {t : Table κ α} {p : κ × α → Bool} {k : κ} :
    k ∈ (t.entries.filter p).map Prod.fst ↔ ∃ a, t.get? k = some a ∧ p (k, a) = true := by
  simp only [List.mem_map, List.mem_filter]
  constructor
  · rintro ⟨⟨k', a⟩, ⟨hmem, hp⟩, rfl⟩
    exact ⟨a, get?_eq_some_iff.mpr hmem, hp⟩
  · rintro ⟨a, hget, hp⟩
    exact ⟨(k, a), ⟨get?_eq_some_iff.mp hget, hp⟩, rfl⟩

@[simp] theorem get?_mapEntries (f : κ → α → β) (t : Table κ α) (k : κ) :
    (t.mapEntries f).get? k = (t.get? k).map (f k) := by
  cases ht : t.get? k with
  | some a =>
    rw [Option.map_some, get?_eq_some_iff]
    exact List.mem_map.mpr ⟨(k, a), get?_eq_some_iff.mp ht, rfl⟩
  | none =>
    rw [Option.map_none, Option.eq_none_iff_forall_ne_some]
    intro b hb
    obtain ⟨⟨k', a⟩, hmem, he⟩ := List.mem_map.mp (get?_eq_some_iff.mp hb)
    obtain rfl : k' = k := congrArg Prod.fst he
    exact absurd (ht.symm.trans (get?_eq_some_iff.mpr hmem)) (by simp)

/-- A table is another one with its values replaced if it is so at every key. -/
theorem eq_mapEntries_iff [Std.TransOrd κ] {f : κ → α → β} {t : Table κ α} {u : Table κ β} :
    u = t.mapEntries f ↔ ∀ k, u.get? k = (t.get? k).map (f k) := by
  constructor
  · rintro rfl k
    exact get?_mapEntries f t k
  · intro h
    apply ext_get?
    intro k
    rw [h, get?_mapEntries]

/-- Replacing a value and then all is replacing all and then that one. -/
theorem mapEntries_insert [Std.TransOrd κ] (f : κ → α → β) (t : Table κ α) (k : κ) (a : α) :
    (t.insert k a).mapEntries f = (t.mapEntries f).insert k (f k a) := by
  apply ext_get?
  intro x
  by_cases hx : x = k
  · subst hx
    simp
  · simp [hx]

/-- Removing a key and replacing the values of the others in either order. -/
theorem mapEntries_erase [Std.TransOrd κ] (f : κ → α → β) (t : Table κ α) (k : κ) :
    (t.erase k).mapEntries f = (t.mapEntries f).erase k := by
  apply ext_get?
  intro x
  by_cases hx : x = k
  · subst hx
    simp
  · simp [hx]

@[simp] theorem contains_mapEntries (f : κ → α → β) (t : Table κ α) (k : κ) :
    (t.mapEntries f).contains k = t.contains k := by
  unfold contains
  rw [get?_mapEntries, Option.isSome_map]

/-- The table of a list of keys, each with a value that depends on it. -/
theorem get?_ofList_map [Std.TransOrd κ] (f : κ → α) (keys : List κ) (k : κ) :
    (ofList (keys.map fun x => (x, f x))).get? k = if k ∈ keys then some (f k) else none := by
  have hfold : ∀ (l : List κ) (t : Table κ α),
      ((l.map fun x => (x, f x)).foldl (fun t e => t.insert e.1 e.2) t).get? k =
        if k ∈ l then some (f k) else t.get? k := by
    intro l
    induction l with
    | nil => simp
    | cons x l ih =>
      intro t
      rw [List.map_cons, List.foldl_cons, ih, get?_insert]
      by_cases hx : k = x
      · subst hx
        simp
      · simp [hx]
  exact hfold keys empty

omit [DecidableEq κ] [Std.LawfulEqOrd κ] in
/-- The values of a table with its values replaced. -/
theorem values_mapEntries (f : κ → α → β) (t : Table κ α) :
    (t.mapEntries f).values = t.entries.map fun e => f e.1 e.2 := by
  unfold values mapEntries
  rw [List.map_map]
  rfl

end

end Depot.Table

namespace Depot.Names

theorem mem_toList {s : Names} {x : String} : x ∈ s.toList ↔ s.contains x = true :=
  Table.mem_keys_iff

theorem ascending_toList (s : Names) : Ascending s.toList := Table.keys_ascending s

end Depot.Names
