import Depot.Proofs.Credential.Password

/-!
# Password hashes cut short

Checking a password derives a key of the stored one's length, whatever that length is. The start of
a base 64 text is often one itself, so that a stored hash that lost its end may still be read, with
a shorter key; and a shorter key is the start of a longer one.

Headlines
* **`verify_with_field`**: the passwords that a hash verifies whose key field was replaced.
* **`truncated_hash_verifies`**: the passwords that a hash verifies whose key field was cut short.
-/

namespace Depot.Credential.Password

open Base64 (Whole decode? encode)
open Pbkdf2 (keyOf)
open Text (pieces)

variable {before field short password q : String} {s : Stored} {salt : Bytes} {rounds : Nat}

/-- The last field of a text stands after the fields of what is before it. -/
theorem fields_append (before : String) (h : '$' ∉ field.toList) :
    (pieces '$' (before ++ "$" ++ field).toList).map String.ofList =
      (pieces '$' before.toList).map String.ofList ++ [field] := by
  have hsep : "$".toList = ['$'] := rfl
  rw [String.toList_append, String.toList_append, hsep, List.append_assoc, List.singleton_append,
    Text.pieces_append, Text.pieces_of_not_mem h, List.map_append, List.map_singleton,
    String.ofList_toList]

/-- Reading a hash whose last field was replaced gives the same rounds and salt, and the key that
the new field is read as. -/
theorem parse?_with_field (h : Spells (before ++ "$" ++ field) s) (hfield : '$' ∉ field.toList)
    (hshort : '$' ∉ short.toList) : field = encode .standard s.key ∧
      Stored.parse? (before ++ "$" ++ short) =
        (decode? .standard short).map fun key => { s with key := key } := by
  obtain ⟨rounds, hfields, hrounds⟩ := h.fields
  rw [fields_append before hfield] at hfields
  have hsplit : _ ++ [field] = ["", scheme, rounds, encode .standard s.salt] ++
      [encode .standard s.key] := hfields
  obtain ⟨hbefore, hlast⟩ := List.append_inj' hsplit rfl
  refine ⟨List.singleton_inj.mp hlast, ?_⟩
  unfold Stored.parse?
  rw [fields_append before hshort, hbefore]
  simp only [List.cons_append, List.nil_append, if_true, rounds?_eq_some_iff.mpr hrounds,
    Base64.decode?_eq_some_iff.mpr rfl, Option.bind_eq_bind, Option.bind_some]
  cases decode? .standard short <;> rfl

/-- **A hash whose last field was replaced verifies the passwords that give the key the new field is
read as**, if that is not empty. -/
theorem verify_with_field (h : Spells (before ++ "$" ++ field) s) (hfield : '$' ∉ field.toList)
    (hshort : '$' ∉ short.toList) : verify (before ++ "$" ++ short) q = true ↔
      ∃ key, decode? .standard short = some key ∧ key ≠ [] ∧
        keyOf (Bytes.utf8 q) s.salt s.rounds key.length = key := by
  unfold verify
  rw [(parse?_with_field h hfield hshort).2]
  cases decode? .standard short with
  | none => simp
  | some key => simp [matches_eq_true_iff]

/-- **The passwords that a hash verifies whose key field was cut short.** A hash that keeps only the
first digits of its key verifies a password just if there are two of them or more, they hold whole
bytes, and the key of the password starts with these bytes. -/
theorem truncated_hash_verifies (hpos : 0 < rounds) (hmax : rounds ≤ 0xffffffff)
    (hhash : hashWith rounds salt password = before ++ "$" ++ field) (hfield : '$' ∉ field.toList)
    (hcut : short.toList <+: field.toList) (q : String) :
    verify (before ++ "$" ++ short) q = true ↔
      2 ≤ short.length ∧
        Whole (keyOf (Bytes.utf8 password) salt rounds keyLength) short.length ∧
        (keyOf (Bytes.utf8 q) salt rounds keyLength).take (6 * short.length / 8) =
          (keyOf (Bytes.utf8 password) salt rounds keyLength).take (6 * short.length / 8) := by
  have hspells := spells_hashWith hpos hmax salt password
  rw [hhash] at hspells
  have hdollar : '$' ∉ short.toList := fun hmem => hfield (hcut.subset hmem)
  obtain ⟨hdigits, -⟩ := parse?_with_field hspells hfield hdollar
  generalize hkey : keyOf (Bytes.utf8 password) salt rounds keyLength = key at *
  rw [hdigits] at hcut
  have hbytes : 6 * short.length / 8 ≤ keyLength := by
    have hle := hcut.length_le
    rw [encode, String.toList_ofList, Base64.length_unpadded, ← hkey, Pbkdf2.length_keyOf,
      String.length_toList] at hle
    unfold keyLength at hle ⊢
    omega
  have hlength : (key.take (6 * short.length / 8)).length = 6 * short.length / 8 := by
    rw [List.length_take, ← hkey, Pbkdf2.length_keyOf]
    exact min_eq_left hbytes
  rw [verify_with_field hspells hfield hdollar, Base64.decode?_of_prefix hcut,
    Pbkdf2.keyOf_take _ _ _ hbytes]
  have hsome : key.take (6 * short.length / 8) ≠ [] ↔ 2 ≤ short.length := by
    rw [← List.length_pos_iff, hlength]
    omega
  by_cases hwhole : Whole key short.length
  · simp only [hwhole, if_true, Option.some.injEq, exists_eq_left', hsome, hlength, true_and]
  · simp only [hwhole, if_false, reduceCtorEq, false_and, exists_false, and_false]

/-- A hash of one round without its key. -/
def stem : String := "$pbkdf2-sha256$1$AAAAAAAAAAAAAAAAAAAAAA"

/-- Its key. -/
def stemKey : String := "qdUXJmmh2MDa8AQ7yPyXDNlS6UPicOFXkyPWuNBotMk"

theorem stem_hash : hashWith 1 (List.replicate 16 0) "hunter2" = stem ++ "$" ++ stemKey := by
  decide +kernel

/-- Three bytes of the key tell two passwords apart, and a lone digit after them makes the key
unreadable. -/
theorem stem_truncated :
    hashWith 1 (List.replicate 16 0) "hunter2" = stem ++ "$" ++ stemKey ∧
      verify (stem ++ "$" ++ "qdUX") "hunter3" = false ∧
      verify (stem ++ "$" ++ "qdUXJ") "hunter2" = false := by
  have hfour : verify (stem ++ "$" ++ "qdUX") "hunter3" = true ↔ _ :=
    truncated_hash_verifies (by decide) (by decide) stem_hash (by decide) (by decide +kernel) _
  have hfive : verify (stem ++ "$" ++ "qdUXJ") "hunter2" = true ↔ _ :=
    truncated_hash_verifies (by decide) (by decide) stem_hash (by decide) (by decide +kernel) _
  refine ⟨stem_hash, Bool.eq_false_iff.mpr fun h => ?_, Bool.eq_false_iff.mpr fun h => ?_⟩
  · exact absurd (hfour.mp h).2.2 (by decide +kernel)
  · exact absurd (hfive.mp h).2.1 (by decide +kernel)

/-- A hash that keeps four digits of its key verifies the password that it was made of. -/
theorem truncated_hash_matches :
    hashWith 1 (List.replicate 16 0) "hunter2" = stem ++ "$" ++ stemKey ∧
      '$' ∉ stemKey.toList ∧ "qdUX".toList <+: stemKey.toList ∧ "qdUX" ≠ stemKey ∧
      verify (stem ++ "$" ++ "qdUX") "hunter2" = true := by
  decide +kernel

end Depot.Credential.Password
