import Depot.Proofs.Registry.Listing
import Depot.Text.Pairs

/-!
# Pairs in order

Sorting pairs of texts by the first text and then by the second one forgets the order that they came
in, and puts the first texts in the order that sorting them alone gives.

Headlines
* **`sortPairs_eq_iff`**: pairs are sorted to the same list just if they are the same pairs, each as
  often.
* **`map_fst_sortPairs`**: the first texts of sorted pairs are the sorted first texts.
-/

namespace Depot.Text

open Registry (sortNames)

variable {p q r : String × String} {l m : List (String × String)}

theorem pairLe_trans (hpq : pairLe p q = true) (hqr : pairLe q r = true) : pairLe p r = true :=
  @Std.TransCmp.isLE_trans _ (compareLex (compareOn Prod.fst) (compareOn Prod.snd)) _ _ _ _
    hpq hqr

theorem pairLe_total (p q : String × String) : (pairLe p q || pairLe q p) = true := by
  have hswap : (compare q.1 p.1).then (compare q.2 p.2) =
      ((compare p.1 q.1).then (compare p.2 q.2)).swap := by
    rw [Ordering.swap_then, ← Std.OrientedCmp.eq_swap, ← Std.OrientedCmp.eq_swap]
  unfold pairLe
  rw [hswap]
  cases (compare p.1 q.1).then (compare p.2 q.2) <;> rfl

/-- Pairs that may precede each other are one pair. -/
theorem pairLe_antisymm (hpq : pairLe p q = true) (hqp : pairLe q p = true) : p = q := by
  have heq : (compare p.1 q.1).then (compare p.2 q.2) = .eq :=
    @Std.OrientedCmp.isLE_antisymm _ (compareLex (compareOn Prod.fst) (compareOn Prod.snd)) _ _ _
      hpq hqp
  obtain ⟨hfst, hsnd⟩ := Ordering.then_eq_eq.mp heq
  exact Prod.ext (Std.LawfulEqCmp.eq_of_compare hfst) (Std.LawfulEqCmp.eq_of_compare hsnd)

theorem sortPairs_perm (l : List (String × String)) : (sortPairs l).Perm l :=
  List.mergeSort_perm l pairLe

theorem pairwise_sortPairs (l : List (String × String)) :
    (sortPairs l).Pairwise fun p q => pairLe p q = true := by
  unfold sortPairs
  refine List.pairwise_mergeSort (fun p q r hpq hqr => ?_) (fun p q => ?_) l
  · exact pairLe_trans hpq hqr
  · exact pairLe_total p q

/-- **Pairs are sorted to the same list just if they are the same pairs**, each as often. -/
theorem sortPairs_eq_iff : sortPairs l = sortPairs m ↔ l.Perm m := by
  constructor
  · intro h
    exact (sortPairs_perm l).symm.trans (h ▸ sortPairs_perm m)
  · intro h
    have hperm := ((sortPairs_perm l).trans h).trans (sortPairs_perm m).symm
    exact hperm.eq_of_pairwise (fun _ _ _ _ => pairLe_antisymm) (pairwise_sortPairs l)
      (pairwise_sortPairs m)

/-- The first text of a pair does not lie beyond that of a pair that it may precede. -/
theorem isLE_fst_of_pairLe (h : pairLe p q = true) : (compare p.1 q.1).isLE = true := by
  unfold pairLe at h
  cases hcmp : compare p.1 q.1 with
  | lt => rfl
  | eq => rfl
  | gt =>
    rw [hcmp] at h
    exact nomatch h

/-- **The first texts of sorted pairs are the sorted first texts.** -/
theorem map_fst_sortPairs (l : List (String × String)) :
    (sortPairs l).map Prod.fst = sortNames (l.map Prod.fst) := by
  have hsorted : ((sortPairs l).map Prod.fst).Pairwise fun a b => (compare a b).isLE = true :=
    List.pairwise_map.mpr ((pairwise_sortPairs l).imp isLE_fst_of_pairLe)
  rw [← Registry.sortNames_eq_of_perm ((sortPairs_perm l).map Prod.fst)]
  exact (List.mergeSort_of_pairwise hsorted).symm

end Depot.Text
