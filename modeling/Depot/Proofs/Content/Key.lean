import Depot.Content.Key
import Depot.Proofs.Text.Append
import Depot.Proofs.Text.Decimal
import Depot.Registry.Object

/-!
# Storage keys are safe

The key of an object stays below the store, no two objects share one, and none leads through the key
of another.

Headlines
* **`join_keyParts`**: the parts of a key are the id, cut.
* **`plain_of_mem_keyParts`**: an id that is accepted has letters and digits only in its key;
  **`ne_empty_of_mem_keyParts`**: no part of the key is empty.
* **`storageKey_injective`**: no two ids share a key.
* **`eq_of_keyParts_isPrefix`**: of two digests neither key starts with the other;
  **`length_of_keyParts_isPrefix`**: which keys lead to others at all.
-/

namespace Depot.Content

open Registry (isDigest)

theorem length_le_utf8ByteSize (s : String) : s.toList.length ≤ s.utf8ByteSize := by
  obtain ⟨l, rfl⟩ : ∃ l, s = String.ofList l := ⟨s.toList, String.ofList_toList.symm⟩
  rw [String.toList_ofList]
  induction l with
  | nil => exact Nat.zero_le _
  | cons c l ih =>
    have hc := c.utf8Size_pos
    rw [String.ofList_cons, String.utf8ByteSize_append, String.utf8ByteSize_singleton,
      List.length_cons]
    omega

theorem checkOid_eq_ok_iff {oid : String} :
    checkOid oid = .ok () ↔ oid ≠ "" ∧ ∀ c ∈ oid.toList, isPlain c = true := by
  unfold checkOid
  by_cases h : (!oid.isEmpty && oid.toList.all isPlain) = true
  · rw [if_pos h]
    simpa using h
  · rw [if_neg h]
    simpa using h

/-- An id that is not accepted is refused by name. -/
theorem checkOid_of_ne_ok {oid : String} (h : checkOid oid ≠ .ok ()) :
    checkOid oid = .error (.invalidOid oid) := by
  unfold checkOid at h ⊢
  split at h
  · exact absurd rfl h
  · rename_i hplain
    exact if_neg hplain

theorem eq_invalidOid {oid : String} {e : Error} (h : checkOid oid = .error e) :
    e = .invalidOid oid := by
  have hrefused : checkOid oid ≠ .ok () := by
    rw [h]
    simp
  exact Except.error.inj (h.symm.trans (checkOid_of_ne_ok hrefused))

theorem isDigest_iff {oid : String} : isDigest oid = true ↔
    oid.toList.length = 64 ∧
      ∀ c ∈ oid.toList, ('0' ≤ c ∧ c ≤ '9') ∨ ('a' ≤ c ∧ c ≤ 'f') := by
  unfold isDigest
  simp only [Bool.and_eq_true, beq_iff_eq, List.all_eq_true, Bool.or_eq_true, decide_eq_true_eq]

theorem isPlain_iff {c : Char} : isPlain c = true ↔
    (('A' ≤ c ∧ c ≤ 'Z') ∨ ('a' ≤ c ∧ c ≤ 'z')) ∨ ('0' ≤ c ∧ c ≤ '9') := by
  have hupper : c.isUpper = true ↔ 'A' ≤ c ∧ c ≤ 'Z' := decide_eq_true_iff
  have hlower : c.isLower = true ↔ 'a' ≤ c ∧ c ≤ 'z' :=
    (Bool.and_eq_true_iff).trans (and_congr decide_eq_true_iff decide_eq_true_iff)
  change ((c.isUpper || c.isLower) || c.isDigit) = true ↔ _
  rw [Bool.or_eq_true, Bool.or_eq_true, hupper, hlower, Text.isDigit_iff]

/-- Letters and digits are ASCII characters. -/
theorem val_lt_of_isPlain {c : Char} (h : isPlain c = true) : c.val < 128 := by
  rcases isPlain_iff.mp h with (⟨-, hhigh⟩ | ⟨-, hhigh⟩) | ⟨-, hhigh⟩
  all_goals exact UInt32.lt_of_le_of_lt hhigh (by decide)

/-- A digest has letters and digits only. -/
theorem plain_of_isDigest {oid : String} (h : isDigest oid = true) {c : Char}
    (hc : c ∈ oid.toList) : isPlain c = true := by
  refine isPlain_iff.mpr ?_
  rcases (isDigest_iff.mp h).2 c hc with hdigit | ⟨hlow, hhigh⟩
  · exact Or.inr hdigit
  · exact Or.inl (Or.inr ⟨hlow, Char.le_trans hhigh (by decide)⟩)

theorem checkOid_of_isDigest {oid : String} (h : isDigest oid = true) : checkOid oid = .ok () := by
  refine checkOid_eq_ok_iff.mpr ⟨?_, fun c hc => plain_of_isDigest h hc⟩
  rintro rfl
  exact absurd h (by decide)

/-! ### The parts of a key -/

theorem keyParts_ne_nil (oid : String) : keyParts oid ≠ [] := by
  unfold keyParts
  simp only
  split <;> exact List.cons_ne_nil _ _

/-- **The parts of a key are the id, cut.** -/
theorem join_keyParts (oid : String) : (keyParts oid).flatMap String.toList = oid.toList := by
  unfold keyParts
  simp only
  split
  · exact List.append_nil _
  · have hmiddle : (oid.toList.drop 2).take 2 ++ oid.toList.drop 4 = oid.toList.drop 2 := by
      have hdrop : oid.toList.drop 4 = (oid.toList.drop 2).drop 2 := by rw [List.drop_drop]
      rw [hdrop, List.take_append_drop]
    simp only [List.flatMap_cons, List.flatMap_nil, String.toList_ofList, List.append_nil, hmiddle,
      List.take_append_drop]

theorem keyParts_injective {a b : String} (h : keyParts a = keyParts b) : a = b := by
  apply String.toList_injective
  rw [← join_keyParts a, ← join_keyParts b, h]

/-- **An id that is accepted has letters and digits only in its key.** -/
theorem plain_of_mem_keyParts {oid name : String} (h : checkOid oid = .ok ())
    (hname : name ∈ keyParts oid) {c : Char} (hc : c ∈ name.toList) : isPlain c = true := by
  refine (checkOid_eq_ok_iff.mp h).2 c ?_
  rw [← join_keyParts oid]
  exact List.mem_flatMap.mpr ⟨name, hname, hc⟩

/-- Between its slashes a key has its parts. -/
theorem pieces_storageKey {oid : String} (h : checkOid oid = .ok ()) :
    Text.pieces '/' (storageKey oid).toList = (keyParts oid).map String.toList := by
  unfold storageKey
  rw [String.toList_intercalate]
  refine Text.pieces_intercalate (by simpa using keyParts_ne_nil oid) fun part hpart hslash => ?_
  obtain ⟨name, hname, rfl⟩ := List.mem_map.mp hpart
  exact absurd (plain_of_mem_keyParts h hname hslash) (by decide)

/-- Without its slashes the key is the id. -/
theorem filter_storageKey {oid : String} (h : checkOid oid = .ok ()) :
    (storageKey oid).toList.filter (· != '/') = oid.toList := by
  unfold storageKey
  rw [String.toList_intercalate, ← join_keyParts oid, List.flatMap_def]
  refine Text.filter_intercalate fun part hpart hslash => ?_
  obtain ⟨name, hname, rfl⟩ := List.mem_map.mp hpart
  exact absurd (plain_of_mem_keyParts h hname hslash) (by decide)

/-- A key has letters, digits and slashes only. -/
theorem plain_of_mem_storageKey {oid : String} (h : checkOid oid = .ok ()) {c : Char}
    (hc : c ∈ (storageKey oid).toList) (hslash : c ≠ '/') : isPlain c = true := by
  refine (checkOid_eq_ok_iff.mp h).2 c ?_
  rw [← filter_storageKey h]
  exact List.mem_filter.mpr ⟨hc, bne_iff_ne.mpr hslash⟩

/-- **No two ids share a key.** -/
theorem storageKey_injective {a b : String} (ha : checkOid a = .ok ()) (hb : checkOid b = .ok ())
    (h : storageKey a = storageKey b) : a = b := by
  refine keyParts_injective ((List.map_inj_right fun _ _ h => String.toList_injective h).mp ?_)
  rw [← pieces_storageKey ha, ← pieces_storageKey hb, h]

/-- A key has three parts at most. -/
theorem length_keyParts_le (oid : String) : (keyParts oid).length ≤ 3 := by
  unfold keyParts
  simp only
  split <;> simp

theorem utf8ByteSize_ofList_of_ascii {l : List Char} (h : ∀ c ∈ l, c.val < 128) :
    (String.ofList l).utf8ByteSize = l.length := by
  induction l with
  | nil => rfl
  | cons c l ih =>
    have hc : c.utf8Size = 1 := by
      have hlt := UInt32.lt_iff_toNat_lt.mp (h c List.mem_cons_self)
      exact Char.utf8Size_eq_one_iff.mpr (UInt32.le_iff_toNat_le.mpr (Nat.le_of_lt_succ hlt))
    rw [String.ofList_cons, String.utf8ByteSize_append, String.utf8ByteSize_singleton, hc,
      ih fun d hd => h d (List.mem_cons_of_mem c hd), List.length_cons, Nat.add_comm]

/-- **No part of the key of an id that is accepted is empty.** -/
theorem ne_empty_of_mem_keyParts {oid name : String} (h : checkOid oid = .ok ())
    (hname : name ∈ keyParts oid) : name ≠ "" := by
  obtain ⟨hne, hplain⟩ := checkOid_eq_ok_iff.mp h
  have hascii : ∀ c ∈ oid.toList, c.val < 128 := fun c hc => val_lt_of_isPlain (hplain c hc)
  have hbytes : oid.utf8ByteSize = oid.toList.length := by
    rw [← utf8ByteSize_ofList_of_ascii hascii, String.ofList_toList]
  unfold keyParts at hname
  simp only at hname
  split at hname
  · rw [List.mem_singleton.mp hname]
    exact hne
  · rename_i hcut
    have hlong : 5 ≤ oid.toList.length := by
      by_contra hshort
      exact hcut (by simp [hbytes, Nat.lt_of_not_le hshort])
    have hpart : ∀ l : List Char, 0 < l.length → String.ofList l ≠ "" := by
      rintro l hpos hempty
      rw [← String.toList_inj, String.toList_ofList] at hempty
      simp [hempty] at hpos
    simp only [List.mem_cons, List.not_mem_nil, or_false] at hname
    rcases hname with rfl | rfl | rfl
    all_goals
      refine hpart _ ?_
      simp only [List.length_take, List.length_drop]
      omega

theorem utf8ByteSize_ofList_le (l : List Char) : (String.ofList l).utf8ByteSize ≤ 4 * l.length := by
  induction l with
  | nil => exact Nat.zero_le _
  | cons c l ih =>
    have hc := c.utf8Size_le_four
    rw [String.ofList_cons, String.utf8ByteSize_append, String.utf8ByteSize_singleton,
      List.length_cons]
    omega

/-- The parts before the last one are short. -/
theorem utf8ByteSize_le_of_mem_dropLast {oid name : String} (h : name ∈ (keyParts oid).dropLast) :
    name.utf8ByteSize ≤ 8 := by
  unfold keyParts at h
  simp only at h
  split at h
  · exact absurd h (by simp)
  · simp only [List.dropLast_cons_cons, List.dropLast_singleton, List.mem_cons, List.not_mem_nil,
      or_false] at h
    have htwo : ∀ l : List Char, (String.ofList (l.take 2)).utf8ByteSize ≤ 8 := by
      intro l
      have hle := utf8ByteSize_ofList_le (l.take 2)
      have htake := List.length_take_le 2 l
      omega
    rcases h with rfl | rfl
    · exact htwo _
    · exact htwo _

/-- The key of a digest is the digest, cut after the second and the fourth character. -/
theorem keyParts_of_isDigest {oid : String} (h : isDigest oid = true) :
    keyParts oid = [String.ofList (oid.toList.take 2), String.ofList ((oid.toList.drop 2).take 2),
      String.ofList (oid.toList.drop 4)] := by
  have hbytes : ¬ oid.utf8ByteSize < 5 := by
    have hlength := (isDigest_iff.mp h).1
    have hle := length_le_utf8ByteSize oid
    omega
  have hascii : oid.toList.all (fun c => decide (c.val < 128)) = true :=
    List.all_eq_true.mpr fun c hc => decide_eq_true (val_lt_of_isPlain (plain_of_isDigest h hc))
  unfold keyParts
  simp [hbytes, hascii]

theorem length_keyParts {oid : String} (h : isDigest oid = true) : (keyParts oid).length = 3 := by
  rw [keyParts_of_isDigest h]
  rfl

/-- No part of the key of a digest is long. -/
theorem utf8ByteSize_le_of_mem_keyParts {oid name : String} (h : isDigest oid = true)
    (hname : name ∈ keyParts oid) : name.utf8ByteSize ≤ 240 := by
  have hlength := (isDigest_iff.mp h).1
  have hshort : ∀ l : List Char, l.length ≤ 60 → (String.ofList l).utf8ByteSize ≤ 240 := by
    intro l hl
    have hle := utf8ByteSize_ofList_le l
    omega
  simp only [keyParts_of_isDigest h, List.mem_cons, List.not_mem_nil, or_false] at hname
  rcases hname with rfl | rfl | rfl
  all_goals
    refine hshort _ ?_
    simp only [List.length_take, List.length_drop]
    omega

/-- **Of two digests neither key starts with the other.** -/
theorem eq_of_keyParts_isPrefix {a b : String} (ha : isDigest a = true) (hb : isDigest b = true)
    (h : keyParts a <+: keyParts b) : a = b :=
  keyParts_injective (h.eq_of_length ((length_keyParts ha).trans (length_keyParts hb).symm))

/-- **The key of an id is on the way to another one only if the id has two characters**, as the
directories of digests have. -/
theorem length_of_keyParts_isPrefix {a b : String} (h : keyParts a <+: (keyParts b).dropLast) :
    a.toList.length = 2 := by
  have hshorter : (keyParts a).length ≤ 2 := by
    have hle := h.length_le
    have hmost := length_keyParts_le b
    rw [List.length_dropLast] at hle
    omega
  have hwhole : keyParts a = [a] := by
    unfold keyParts at hshorter ⊢
    simp only at hshorter ⊢
    split at hshorter
    · rename_i huncut
      exact if_pos huncut
    · exact absurd hshorter (by simp)
  rw [hwhole] at h
  unfold keyParts at h
  simp only at h
  split at h
  · exact absurd h.length_le (by simp)
  · rename_i hcut
    have hlong : 5 ≤ b.utf8ByteSize := by
      by_contra hshort
      exact hcut (by simp [Nat.lt_of_not_le hshort])
    have hbytes := utf8ByteSize_ofList_le b.toList
    rw [String.ofList_toList] at hbytes
    obtain ⟨rfl, -⟩ : a = String.ofList (b.toList.take 2) ∧ _ := List.cons_prefix_cons.mp h
    rw [String.toList_ofList, List.length_take]
    omega

end Depot.Content
