import Depot.Content.Body
import Depot.Proofs.Content.Key

/-!
# What a body measures

The digest of a body does not depend on the pieces that its bytes arrive in.

Headlines
* **`measure_eq`**: a body that does not break off measures as its bytes do.
* **`isDigest_hexDigest`**: the digest of bytes is the id of an object.
-/

namespace Depot

theorem Bytes.flatten_runs {n : Nat} (hn : 0 < n) (b : Bytes) : (runs n b).flatten = b := by
  -- The count of runs is enough as long as it is not below the number of bytes.
  have hgo : ∀ (k : Nat) (b : Bytes), b.length ≤ k → (runs.go n k b).flatten = b := by
    intro k
    induction k with
    | zero =>
      intro b hb
      rw [List.eq_nil_of_length_eq_zero (Nat.le_zero.mp hb)]
      rfl
    | succ k ih =>
      intro b hb
      cases b with
      | nil => rfl
      | cons x b =>
        have hrest : ((x :: b).drop n).length ≤ k := by
          rw [List.length_drop]
          omega
        show (x :: b).take n ++ (runs.go n k ((x :: b).drop n)).flatten = x :: b
        rw [ih _ hrest, List.take_append_drop]
  exact hgo b.length b (Nat.le_refl _)

namespace Content

open Registry (Object isDigest)

/-- Nothing is lost between the pieces of a body and its reads. -/
theorem Body.flatten_reads (b : Body) : b.reads.flatten = b.pieces.flatten := by
  unfold Body.reads
  induction b.pieces with
  | nil => rfl
  | cons x rest ih =>
    rw [List.flatMap_cons, List.flatten_append, List.flatten_cons, ih,
      Bytes.flatten_runs (by decide)]

theorem absorbAll_update (c : Sha256.Context) (x : Bytes) (reads : List Bytes) :
    absorbAll (c.update x) reads = c.update (x ++ reads.flatten) := by
  induction reads generalizing x with
  | nil => rw [List.flatten_nil, List.append_nil]; rfl
  | cons y reads ih =>
    rw [List.flatten_cons, ← List.append_assoc, ← ih, ← Sha256.update_update]
    rfl

/-- The digest of what has been read is that of the bytes. -/
theorem ofContext_absorbAll (reads : List Bytes) :
    Digest.ofContext (absorbAll .empty reads) = Digest.of reads.flatten := by
  have hempty : Sha256.Context.empty = Sha256.Context.empty.update [] := rfl
  rw [hempty, absorbAll_update, List.nil_append]
  unfold Digest.ofContext Digest.of
  have hlength : (Sha256.Context.empty.update reads.flatten).length = reads.flatten.length :=
    Nat.zero_add _
  rw [hlength]
  rfl

/-- **A body that does not break off measures as its bytes do.** -/
theorem Body.measure_eq (b : Body) : b.measure =
    match b.failure with
    | some text => .error text
    | none => .ok (Digest.of b.pieces.flatten) := by
  cases hfailure : b.failure with
  | some text => simp [Body.measure, Body.copy, hfailure]
  | none => simp [Body.measure, Body.copy, hfailure, ofContext_absorbAll, b.flatten_reads]

theorem Digest.check_eq_ok_iff {d : Digest} {o : Object} :
    d.check o = .ok () ↔ d.size = o.size ∧ d.oid = o.oid := by
  unfold Digest.check
  by_cases hsize : d.size = o.size
  · by_cases hoid : d.oid = o.oid
    · simp [hsize, hoid]
    · simp [hsize, hoid]
  · simp [hsize]

theorem digit_range {n : UInt8} (hn : n < 16) :
    ('0' ≤ Hex.digit n ∧ Hex.digit n ≤ '9') ∨ ('a' ≤ Hex.digit n ∧ Hex.digit n ≤ 'f') := by
  have hall : ∀ k : Fin 16, ('0' ≤ Hex.digit (.ofNat k) ∧ Hex.digit (.ofNat k) ≤ '9') ∨
      ('a' ≤ Hex.digit (.ofNat k) ∧ Hex.digit (.ofNat k) ≤ 'f') := by decide
  have hsame : UInt8.ofNat n.toNat = n := UInt8.ofNat_toNat
  simpa only [hsame] using hall ⟨n.toNat, UInt8.lt_iff_toNat_lt.mp hn⟩

/-- Bytes are written in lower-case hexadecimal digits. -/
theorem range_of_mem_encode {b : Bytes} {c : Char} (hc : c ∈ (Hex.encode b).toList) :
    ('0' ≤ c ∧ c ≤ '9') ∨ ('a' ≤ c ∧ c ≤ 'f') := by
  unfold Hex.encode at hc
  rw [String.toList_ofList] at hc
  obtain ⟨x, -, hx⟩ := List.mem_flatMap.mp hc
  simp only [Hex.byte, List.mem_cons, List.not_mem_nil, or_false] at hx
  have hlt : x.toNat < 256 := x.toNat_lt
  rcases hx with rfl | rfl
  · refine digit_range (UInt8.lt_iff_toNat_lt.mpr ?_)
    rw [UInt8.toNat_div]
    show x.toNat / 16 < 16
    omega
  · refine digit_range (UInt8.lt_iff_toNat_lt.mpr ?_)
    rw [UInt8.toNat_mod]
    exact Nat.mod_lt _ (by decide)

/-- **The digest of bytes is the id of an object.** -/
theorem isDigest_hexDigest (b : Bytes) : isDigest (Sha256.hexDigest b) = true := by
  refine isDigest_iff.mpr ⟨?_, fun c hc => range_of_mem_encode hc⟩
  have htoList : (Sha256.hexDigest b).toList = (Sha256.digest b).flatMap Hex.byte :=
    String.toList_ofList
  have hbyte : ∀ x, (Hex.byte x).length = 2 := fun _ => rfl
  simp only [htoList, List.length_flatMap, hbyte, List.map_const', List.sum_replicate_nat,
    Sha256.length_digest]

end Content

end Depot
