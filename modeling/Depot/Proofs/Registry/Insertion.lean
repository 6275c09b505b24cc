import Depot.Proofs.Bytes.Order
import Depot.Proofs.Registry.Listing

/-!
# Where an object id is put

An object id goes to the position in a project's list that a binary search gives. The search halves
a stretch of positions that the list has, so whatever the order of the list it ends inside, and the
id is found there or put beside. In an ascending list that is its only place.

Headlines
* `insertOid?` is the insertion with every position checked: **`insertOid?_eq`**, no check fails.
* **`insertOid_placed`**: the list stays, with the id in it, or gets the id at one position.
* **`insertion_keeps_order`**: both, and what comes of it in a list that ascends by bytes.
-/

namespace Depot.Registry

variable {l : List String} {oid wanted : String} {base size : Nat}

/-! ### Checked positions -/

/-- Halving that fails if it looks at a position that the list does not have. -/
def halve? (l : Array String) (wanted : String) (base size : Nat) : Option Nat :=
  if size > 1 then do
    let middle := base + size / 2
    let found ← l[middle]?
    halve? l wanted (if compare found wanted = .gt then base else middle) (size - size / 2)
  else some base
termination_by size

/-- A search that fails if it looks at a position that the list does not have. -/
def search? (l : List String) (wanted : String) : Option (Except Nat Nat) :=
  if l.isEmpty then some (.error 0)
  else do
    let base ← halve? l.toArray wanted 0 l.length
    let found ← l[base]?
    match compare found wanted with
    | .eq => some (.ok base)
    | .lt => some (.error (base + 1))
    | .gt => some (.error base)

/-- Puts an object id at a position, which fails beyond the end. -/
def putAt? (l : List String) (i : Nat) (oid : String) : Option (List String) :=
  if i ≤ l.length then some (l.take i ++ oid :: l.drop i) else none

/-- An insertion that fails at a position that the list does not have. -/
def insertOid? (l : List String) (oid : String) : Option (Bool × List String) := do
  match ← search? l oid with
  | .ok _ => some (false, l)
  | .error i => (putAt? l i oid).map fun inserted => (true, inserted)

/-- Halving ends inside the stretch that it starts with. -/
theorem halve_lt (a : Array String) (wanted : String) (base : Nat) (hpos : 0 < size) :
    halve a wanted base size < base + size := by
  induction size using Nat.strongRecOn generalizing base with
  | ind size ih =>
    unfold halve
    by_cases hone : size > 1
    · have hlower := ih (size - size / 2) (by omega) base (by omega)
      have hupper := ih (size - size / 2) (by omega) (base + size / 2) (by omega)
      rw [if_pos hone]
      dsimp only
      split_ifs <;> omega
    · rw [if_neg hone]
      omega

/-- Halving a stretch that the list has looks at positions of it only. -/
theorem halve?_eq {a : Array String} (hpos : 0 < size) (hsize : base + size ≤ a.size) :
    halve? a wanted base size = some (halve a wanted base size) := by
  induction size using Nat.strongRecOn generalizing base with
  | ind size ih =>
    unfold halve? halve
    by_cases hone : size > 1
    · rw [if_pos hone, if_pos hone]
      have hmiddle : base + size / 2 < a.size := by omega
      have hget : a.getD (base + size / 2) "" = a[base + size / 2] := by
        simp [Array.getD, hmiddle]
      simp only [Array.getElem?_eq_getElem hmiddle, hget, Option.bind_eq_bind, Option.bind_some]
      refine ih (size - size / 2) (by omega) (by omega) ?_
      split_ifs <;> omega
    · rw [if_neg hone, if_neg hone]

/-- What a search comes to in a list that is not empty, by the member that halving ends at. -/
theorem search_of_ne_nil (h : l ≠ []) (wanted : String) : ∃ (i : Nat) (hi : i < l.length),
    halve? l.toArray wanted 0 l.length = some i ∧
    search l wanted = match compare l[i] wanted with
      | .eq => .ok i
      | .lt => .error (i + 1)
      | .gt => .error i := by
  have hpos : 0 < l.length := List.length_pos_iff.mpr h
  have hlt := halve_lt l.toArray wanted 0 hpos
  rw [Nat.zero_add] at hlt
  refine ⟨_, hlt, halve?_eq hpos (by simp), ?_⟩
  have hget : l.toArray.getD (halve l.toArray wanted 0 l.length) "" =
      l[halve l.toArray wanted 0 l.length] := by
    simp [hlt]
  unfold search
  rw [if_neg (by simpa using h)]
  cases hcompare : compare l[halve l.toArray wanted 0 l.length] wanted
  all_goals simp only [List.size_toArray, hget, hcompare]

/-- A search looks at positions of the list only. -/
theorem search?_eq (l : List String) (wanted : String) :
    search? l wanted = some (search l wanted) := by
  by_cases hempty : l = []
  · rw [hempty]
    rfl
  · obtain ⟨i, hi, hhalve, hsearch⟩ := search_of_ne_nil hempty wanted
    unfold search?
    rw [if_neg (by simpa using hempty), hhalve, hsearch]
    simp only [Option.bind_eq_bind, Option.bind_some, List.getElem?_eq_getElem hi]
    cases compare l[i] wanted <;> rfl

/-- A name that is found is in the list, and one that is not is given a position of the list or its
end. -/
theorem search_cases (l : List String) (wanted : String) :
    (∃ i, search l wanted = .ok i ∧ wanted ∈ l) ∨
      ∃ i ≤ l.length, search l wanted = .error i := by
  by_cases hempty : l = []
  · rw [hempty]
    exact .inr ⟨0, Nat.le_refl 0, rfl⟩
  · obtain ⟨i, hi, -, hsearch⟩ := search_of_ne_nil hempty wanted
    rw [hsearch]
    cases hcompare : compare l[i] wanted with
    | eq =>
      have hfound : l[i] = wanted := Std.LawfulEqCmp.eq_of_compare hcompare
      exact .inl ⟨i, rfl, hfound ▸ List.getElem_mem hi⟩
    | lt => exact .inr ⟨i + 1, hi, rfl⟩
    | gt => exact .inr ⟨i, hi.le, rfl⟩

/-! ### Insertion -/

/-- What an insertion may come to: the id is there and the list stays, or the id is put at one
position and all else stays in its place. -/
inductive Placed (l : List String) (oid : String) : Bool × List String → Prop
  /-- The id is there. -/
  | present (h : oid ∈ l) : Placed l oid (false, l)
  /-- The id is put between two parts of the list. -/
  | put (before after : List String) (h : l = before ++ after) :
    Placed l oid (true, before ++ oid :: after)

/-- **The list stays, with the id in it, or gets the id at one position.** -/
theorem insertOid_placed (l : List String) (oid : String) : Placed l oid (insertOid l oid) := by
  unfold insertOid
  rcases search_cases l oid with ⟨i, hsearch, hmem⟩ | ⟨i, -, hsearch⟩
  · rw [hsearch]
    exact .present hmem
  · rw [hsearch]
    exact .put _ _ (List.take_append_drop i l).symm

/-- **No position is out of range**, whatever the order of the list. -/
theorem insertOid?_eq (l : List String) (oid : String) :
    insertOid? l oid = some (insertOid l oid) := by
  unfold insertOid? insertOid putAt?
  rw [search?_eq]
  rcases search_cases l oid with ⟨i, hsearch, -⟩ | ⟨i, hi, hsearch⟩
  · rw [hsearch]
    rfl
  · rw [hsearch]
    simp [hi]

/-- An id is put into an ascending list just if it is not there. -/
theorem insertOid_fst_iff (h : Ascending l) : (insertOid l oid).1 = true ↔ oid ∉ l := by
  have hnodup := (insertOid_spec h oid).1.nodup
  generalize hinsert : insertOid l oid = r at hnodup ⊢
  have hplaced : Placed l oid r := hinsert ▸ insertOid_placed l oid
  cases hplaced with
  | present hmem => exact iff_of_false Bool.false_ne_true fun habsent => habsent hmem
  | put before after hl =>
    -- Put twice, the id would be repeated.
    refine iff_of_true rfl ?_
    rw [hl]
    exact (List.nodup_cons.mp (List.perm_middle.nodup_iff.mp hnodup)).1

/-- **An insertion keeps the order, and in any list it disturbs nothing.** Whatever the order of a
project's list, no position is out of range, and the list stays as it is, with the id in it, or gets
the id at one position. If the list ascends in the order of bytes, the id is put just if it is not
there, the list ascends still, and its members are those that there were and the id. -/
theorem insertion_keeps_order (p : Project) (oid : String) :
    insertOid? p.oids oid = some (insertOid p.oids oid) ∧
    Placed p.oids oid (insertOid p.oids oid) ∧
    (Ascending (p.oids.map Bytes.utf8) →
      ((insertOid p.oids oid).1 = true ↔ oid ∉ p.oids) ∧
      Ascending ((insertOid p.oids oid).2.map Bytes.utf8) ∧
      ∀ x, x ∈ (insertOid p.oids oid).2 ↔ x = oid ∨ x ∈ p.oids) := by
  refine ⟨insertOid?_eq p.oids oid, insertOid_placed p.oids oid, fun hbytes => ?_⟩
  have hascending : Ascending p.oids := Bytes.ascending_map_utf8.mp hbytes
  obtain ⟨hkept, hmem⟩ := insertOid_spec hascending oid
  exact ⟨insertOid_fst_iff hascending, Bytes.ascending_map_utf8.mpr hkept, hmem⟩

/-- An id is put before one that begins with a character of two bytes. -/
theorem insertion_before_longer :
    Ascending (["b", "é"].map Bytes.utf8) ∧ (insertOid ["b", "é"] "z").1 = true ∧
      Ascending ((insertOid ["b", "é"] "z").2.map Bytes.utf8) := by
  have hbytes : Ascending (["b", "é"].map Bytes.utf8) := by decide +kernel
  obtain ⟨hput, hkept, -⟩ := (insertion_keeps_order ⟨"films", ["b", "é"]⟩ "z").2.2 hbytes
  exact ⟨hbytes, hput.mpr (by decide), hkept⟩

/-- In a list out of order an id may be put that is there. -/
example : insertOid ["c", "a", "b"] "c" = (true, ["c", "a", "b", "c"]) := by
  decide +kernel

end Depot.Registry
