import Depot.Registry.Object
import Mathlib.Data.List.GetD
import Mathlib.Data.List.Perm.Basic

/-!
# Ascending lists of names

Every listing of a registry is in ascending order without repetitions, so that it is determined by
its members. Sorting and inserting by a binary search lead to such lists.

Headlines
* **`Ascending.ext`**: ascending lists with the same members are equal.
* **`mergeSort_eq_of_perm`**: sorting by names that differ forgets the order of a list.
* **`insertOid_spec`**, **`foldl_insert_spec`**: inserting names into an ascending list by binary
  searches gives the ascending list with those names among its members.
-/

namespace Depot

/-! ### Order -/

section

variable {l m : List String}

theorem Ascending.nodup (h : Ascending l) : l.Nodup :=
  h.imp fun {a b} hab he => by
    subst he
    simp at hab

theorem Ascending.isLE (h : Ascending l) : l.Pairwise fun a b => (compare a b).isLE = true :=
  h.imp fun hab => by rw [hab]; rfl

/-- **Ascending lists with the same members are equal.** -/
theorem Ascending.ext (hl : Ascending l) (hm : Ascending m) (h : ∀ x, x ∈ l ↔ x ∈ m) : l = m := by
  have hperm : l.Perm m := (List.perm_ext_iff_of_nodup hl.nodup hm.nodup).mpr h
  refine hperm.eq_of_pairwise ?_ hl.isLE hm.isLE
  intro a b _ _ hab hba
  exact Std.LawfulEqCmp.eq_of_compare (Std.OrientedCmp.isLE_antisymm hab hba)

end

namespace Registry

variable {l : List String} {wanted : String}

theorem mem_sortNames {x : String} : x ∈ sortNames l ↔ x ∈ l := List.mem_mergeSort

theorem sortNames_perm (l : List String) : (sortNames l).Perm l := List.mergeSort_perm l _

/-- Sorting leaves an ascending list as it is. -/
theorem sortNames_of_ascending (h : Ascending l) : sortNames l = l :=
  List.mergeSort_of_pairwise h.isLE

section

variable {α : Type} (f : α → String)

/-- Sorting by a name sorts. -/
theorem pairwise_mergeSort (l : List α) :
    (l.mergeSort fun a b => (compare (f a) (f b)).isLE).Pairwise fun a b =>
      (compare (f a) (f b)).isLE = true := by
  refine List.pairwise_mergeSort (fun a b c hab hbc => ?_) (fun a b => ?_) l
  · exact Std.TransCmp.isLE_trans hab hbc
  · have hswap : compare (f b) (f a) = (compare (f a) (f b)).swap := Std.OrientedCmp.eq_swap
    rw [hswap]
    cases compare (f a) (f b) <;> rfl

variable {f}

/-- **Sorting by names that differ forgets the order of a list.** -/
theorem mergeSort_eq_of_perm {l m : List α} (h : l.Perm m)
    (hf : ∀ a ∈ m, ∀ b ∈ m, f a = f b → a = b) :
    (l.mergeSort fun a b => (compare (f a) (f b)).isLE) =
      m.mergeSort fun a b => (compare (f a) (f b)).isLE := by
  have hperm := ((List.mergeSort_perm l fun a b => (compare (f a) (f b)).isLE).trans h).trans
    (List.mergeSort_perm m fun a b => (compare (f a) (f b)).isLE).symm
  refine hperm.eq_of_pairwise (fun a b ha hb hab hba => ?_) (pairwise_mergeSort f l)
    (pairwise_mergeSort f m)
  refine hf a (h.mem_iff.mp (List.mem_mergeSort.mp ha)) b (List.mem_mergeSort.mp hb) ?_
  exact Std.LawfulEqCmp.eq_of_compare (Std.OrientedCmp.isLE_antisymm hab hba)

end

/-- Sorting forgets the order of names. -/
theorem sortNames_eq_of_perm {m : List String} (h : l.Perm m) : sortNames l = sortNames m :=
  mergeSort_eq_of_perm (f := id) h fun _ _ _ _ he => he

/-- Sorting a list without repetitions gives an ascending one. -/
theorem ascending_sortNames (h : l.Nodup) : Ascending (sortNames l) := by
  have hsorted : (sortNames l).Pairwise fun a b => (compare a b).isLE = true :=
    pairwise_mergeSort id l
  have hnodup : (sortNames l).Nodup := (List.mergeSort_perm l _).nodup_iff.mpr h
  refine (hsorted.and hnodup).imp fun {a b} ⟨hle, hne⟩ => ?_
  cases hab : compare a b with
  | lt => rfl
  | eq => exact absurd (Std.LawfulEqCmp.eq_of_compare hab) hne
  | gt =>
    rw [hab] at hle
    exact absurd hle (by decide)

/-! ### Binary search -/

theorem compare_getD (h : Ascending l) {i j : Nat} (hij : i < j) (hj : j < l.length) :
    compare (l.getD i "") (l.getD j "") = .lt := by
  have hi : i < l.length := by omega
  rw [List.getD_eq_getElem l "" hi, List.getD_eq_getElem l "" hj]
  exact List.pairwise_iff_getElem.mp h i j hi hj hij

/-- Halving ends at a member such that all after it lie beyond the wanted name, and itself it does
not unless it is the first. -/
theorem halve_spec (h : Ascending l) (wanted : String) (base size : Nat) (hpos : 0 < size)
    (hsize : base + size ≤ l.length) :
    base ≤ halve l.toArray wanted base size ∧ halve l.toArray wanted base size < base + size ∧
      (halve l.toArray wanted base size = base ∨
        compare (l.getD (halve l.toArray wanted base size) "") wanted ≠ .gt) ∧
      ∀ j, halve l.toArray wanted base size < j → j < base + size →
        compare (l.getD j "") wanted = .gt := by
  induction size using Nat.strongRecOn generalizing base with
  | ind size ih =>
    have hget : ∀ i, l.toArray.getD i "" = l.getD i "" := by
      intro i
      simp
    by_cases hone : size > 1
    · unfold halve
      rw [if_pos hone]
      simp only [hget]
      by_cases hgt : compare (l.getD (base + size / 2) "") wanted = .gt
      · rw [if_pos hgt]
        obtain ⟨h1, h2, h3, h4⟩ := ih (size - size / 2) (by omega) base (by omega) (by omega)
        refine ⟨h1, by omega, h3, fun j hj hlt => ?_⟩
        by_cases hin : j < base + (size - size / 2)
        · exact h4 j hj hin
        · rcases Nat.lt_or_ge (base + size / 2) j with hmid | hmid
          · have hlt := compare_getD h hmid (by omega)
            exact Std.OrientedCmp.gt_of_lt (Std.TransCmp.lt_trans (Std.OrientedCmp.lt_of_gt hgt) hlt)
          · have hj' : j = base + size / 2 := by omega
            rw [hj']
            exact hgt
      · rw [if_neg hgt]
        obtain ⟨h1, h2, h3, h4⟩ :=
          ih (size - size / 2) (by omega) (base + size / 2) (by omega) (by omega)
        refine ⟨by omega, by omega, Or.inr ?_, fun j hj hlt => h4 j hj (by omega)⟩
        rcases h3 with h3 | h3
        · rw [h3]
          exact hgt
        · exact h3
    · unfold halve
      rw [if_neg hone]
      exact ⟨Nat.le_refl _, by omega, Or.inl rfl, fun j hj hlt => by omega⟩

/-- A name at a place where all before it are smaller and all after it are greater. -/
theorem splice_spec {i : Nat} (h : Ascending l) (hbefore : ∀ y ∈ l.take i, compare y wanted = .lt)
    (hafter : ∀ y ∈ l.drop i, compare wanted y = .lt) :
    Ascending (l.take i ++ wanted :: l.drop i) ∧
      ∀ x, x ∈ l.take i ++ wanted :: l.drop i ↔ x = wanted ∨ x ∈ l := by
  have hl : Ascending (l.take i ++ l.drop i) := by
    rw [List.take_append_drop]
    exact h
  obtain ⟨htake, hdrop, hcross⟩ := List.pairwise_append.mp hl
  constructor
  · refine List.pairwise_append.mpr ⟨htake, List.pairwise_cons.mpr ⟨hafter, hdrop⟩, ?_⟩
    intro a ha b hb
    rcases List.mem_cons.mp hb with rfl | hb
    · exact hbefore a ha
    · exact hcross a ha b hb
  · intro x
    conv_rhs => rw [← List.take_append_drop i l]
    simp only [List.mem_append, List.mem_cons]
    exact or_left_comm

/-- **A binary search keeps a list ascending**, and the name is among its members then. -/
theorem insertOid_spec (h : Ascending l) (wanted : String) :
    Ascending (insertOid l wanted).2 ∧
      ∀ x, x ∈ (insertOid l wanted).2 ↔ x = wanted ∨ x ∈ l := by
  unfold insertOid search
  by_cases hempty : l.isEmpty = true
  · rw [if_pos hempty]
    obtain rfl := List.isEmpty_iff.mp hempty
    exact splice_spec (i := 0) h (by simp) (by simp)
  · rw [if_neg hempty]
    have hpos : 0 < l.length := List.length_pos_iff.mpr fun he => hempty (List.isEmpty_iff.mpr he)
    obtain ⟨-, hlt, hbase, hgt⟩ := halve_spec h wanted 0 l.length hpos (by omega)
    have hget : ∀ i, l.toArray.getD i "" = l.getD i "" := by
      intro i
      simp
    simp only [List.size_toArray, hget]
    generalize halve l.toArray wanted 0 l.length = b at hlt hbase hgt
    have hb : b < l.length := by omega
    cases hcmp : compare (l.getD b "") wanted with
    | eq =>
      have hmem : wanted ∈ l := by
        rw [← Std.LawfulEqCmp.eq_of_compare hcmp, List.getD_eq_getElem l "" hb]
        exact List.getElem_mem hb
      refine ⟨h, fun x => ⟨Or.inr, ?_⟩⟩
      rintro (rfl | hx)
      · exact hmem
      · exact hx
    | lt =>
      refine splice_spec (i := b + 1) h (fun y hy => ?_) fun y hy => ?_
      · obtain ⟨i, hi, rfl⟩ := List.mem_take_iff_getElem.mp hy
        rw [← List.getD_eq_getElem l "" (by omega)]
        rcases Nat.lt_or_ge i b with hib | hib
        · exact Std.TransCmp.lt_trans (compare_getD h hib hb) hcmp
        · obtain rfl : i = b := by omega
          exact hcmp
      · obtain ⟨i, hi, rfl⟩ := List.mem_drop_iff_getElem.mp hy
        rw [← List.getD_eq_getElem l "" (by omega)]
        exact Std.OrientedCmp.lt_of_gt (hgt _ (by omega) (by omega))
    | gt =>
      -- only the first member can lie beyond the wanted name
      obtain rfl : b = 0 := hbase.resolve_right fun hne => hne hcmp
      refine splice_spec (i := 0) h (by simp) fun y hy => ?_
      obtain ⟨i, hi, rfl⟩ := List.mem_drop_iff_getElem.mp hy
      rw [← List.getD_eq_getElem l "" (by omega)]
      rcases Nat.eq_zero_or_pos i with rfl | hpos'
      · exact Std.OrientedCmp.lt_of_gt hcmp
      · exact Std.OrientedCmp.lt_of_gt (hgt _ (by omega) (by omega))

/-- Objects that are added one after another to an ascending project. -/
theorem foldl_insert_spec (oids : List String) {p : Project} (h : Ascending p.oids) :
    (oids.foldl Project.insert p).name = p.name ∧ Ascending (oids.foldl Project.insert p).oids ∧
      ∀ x, x ∈ (oids.foldl Project.insert p).oids ↔ x ∈ oids ∨ x ∈ p.oids := by
  induction oids generalizing p with
  | nil => exact ⟨rfl, h, by simp⟩
  | cons oid oids ih =>
    obtain ⟨hfirst, hmem⟩ := insertOid_spec h oid
    obtain ⟨hname, hascending, hrest⟩ := ih (p := p.insert oid) hfirst
    refine ⟨hname, hascending, fun x => ?_⟩
    rw [List.foldl_cons, hrest, List.mem_cons, Project.insert, hmem]
    tauto

end Registry

end Depot
