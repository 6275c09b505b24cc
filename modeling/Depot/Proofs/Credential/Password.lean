import Depot.Credential.Password
import Depot.Proofs.Bytes.Base64
import Depot.Proofs.Digest.Pbkdf2
import Depot.Proofs.Text.Append
import Depot.Proofs.Text.Decimal

/-!
# The grammar of password hashes

A stored hash is read by cutting it at every dollar sign. Neither numerals nor digits of base 64 hold
one, so that a text is read as a hash just if it is one written down. Only the rounds can be written
in several ways.

Headlines
* **`Spells`** is the grammar: a text that spells a stored hash.
* **`parse?_eq_some_iff`**: reading a text gives the hash that it spells.
* **`spells_hashWith`**, **`verify_hash`**: what is stored for a new password is a hash of it.
* **`password_hash_grammar`**: the passwords that every text is a hash of.
-/

namespace Depot.Credential.Password

open Base64 (encode encodeWith)
open Text (Numeral pieces word32?)

variable {encoded password : String} {s : Stored}

/-- A text that spells a stored hash: nothing, the name of the key derivation, a numeral of the
rounds, the salt and the key, with dollar signs between them. -/
def Spells (encoded : String) (s : Stored) : Prop :=
  ∃ rounds, encoded = String.intercalate "$"
      ["", scheme, rounds, encode .standard s.salt, encode .standard s.key] ∧
    Numeral rounds s.rounds ∧ 0 < s.rounds ∧ s.rounds ≤ 0xffffffff

/-! ### The fields hold no separator -/

theorem not_mem_of_numeral {rounds : String} {n : Nat} (h : Numeral rounds n) :
    '$' ∉ rounds.toList := by
  obtain ⟨digits, hlist, -, hdigits, -⟩ := h
  have hnone : '$' ∉ digits := fun hmem => absurd (hdigits '$' hmem) (by decide)
  rcases hlist with hlist | hlist
  · rwa [hlist]
  · rw [hlist]
    exact List.not_mem_cons_of_ne_of_not_mem (by decide) hnone

theorem not_mem_encode (b : Bytes) : '$' ∉ (encode .standard b).toList := by
  unfold encode
  rw [String.toList_ofList]
  intro hmem
  rcases Base64.mem_encodeWith_fill hmem with hfill | ⟨n, hn⟩
  · exact List.not_mem_nil hfill
  · have hnone : Base64.Alphabet.standard.value? '$' = none := by decide
    exact nomatch hnone.symm.trans hn

/-! ### Reading -/

theorem rounds?_eq_some_iff {rounds : String} {n : Nat} :
    rounds? rounds = some n ↔ Numeral rounds n ∧ 0 < n ∧ n ≤ 0xffffffff := by
  unfold rounds? word32?
  rw [Option.filter_eq_some_iff, Text.natUpTo?_eq_some_iff, decide_eq_true_eq, and_assoc,
    and_comm (a := n ≤ _)]

/-- A text has five fields just if it is these with dollar signs between them. -/
theorem fields_eq_iff {parts : List String} (hne : parts ≠ []) :
    (pieces '$' encoded.toList).map String.ofList = parts ↔
      encoded = String.intercalate "$" parts ∧ ∀ part ∈ parts, '$' ∉ part.toList := by
  have hlists : (pieces '$' encoded.toList).map String.ofList = parts ↔
      pieces '$' encoded.toList = parts.map String.toList := by
    constructor
    · rintro rfl
      simp
    · intro h
      simp [h]
  rw [hlists, Text.pieces_eq_iff (by simpa using hne), ← String.toList_inj,
    String.toList_intercalate, List.forall_mem_map]
  rfl

/-- A text that spells a hash has its parts as fields. -/
theorem Spells.fields (h : Spells encoded s) :
    ∃ rounds, (pieces '$' encoded.toList).map String.ofList =
        ["", scheme, rounds, encode .standard s.salt, encode .standard s.key] ∧
      Numeral rounds s.rounds ∧ 0 < s.rounds ∧ s.rounds ≤ 0xffffffff := by
  obtain ⟨rounds, htext, hrounds⟩ := h
  refine ⟨rounds, (fields_eq_iff (List.cons_ne_nil "" _)).mpr ⟨htext, ?_⟩, hrounds⟩
  simp only [List.forall_mem_cons]
  exact ⟨by decide, by decide, not_mem_of_numeral hrounds.1, not_mem_encode s.salt,
    not_mem_encode s.key, fun _ hpart => absurd hpart List.not_mem_nil⟩

/-- **Reading a text gives the hash that it spells.** -/
theorem parse?_eq_some_iff : Stored.parse? encoded = some s ↔ Spells encoded s := by
  unfold Stored.parse?
  constructor
  · intro h
    split at h
    · next name rounds salt key hfields =>
      split at h
      · next hname =>
        simp only [Option.bind_eq_bind, Option.bind_eq_some_iff, Option.some.injEq] at h
        obtain ⟨n, hn, b, hb, k, hk, rfl⟩ := h
        rw [Base64.decode?_eq_some_iff] at hb hk
        have htext := ((fields_eq_iff (by simp)).mp hfields).1
        rw [hname, hb, hk] at htext
        exact ⟨rounds, htext, rounds?_eq_some_iff.mp hn⟩
      · exact nomatch h
    · exact nomatch h
  · intro h
    obtain ⟨rounds, hfields, hrounds⟩ := h.fields
    simp only [hfields, if_true, rounds?_eq_some_iff.mpr hrounds,
      Base64.decode?_eq_some_iff.mpr rfl, Option.bind_eq_bind, Option.bind_some]

/-! ### Comparing -/

/-- A hash without a key belongs to no password. -/
theorem matches_eq_true_iff : s.matches password = true ↔ s.key ≠ [] ∧
    Pbkdf2.keyOf (Bytes.utf8 password) s.salt s.rounds s.key.length = s.key := by
  unfold Stored.matches
  rw [Pbkdf2.derive_eq]
  simp

theorem verify_eq_true_iff : verify encoded password = true ↔
    ∃ s, Spells encoded s ∧ s.matches password = true := by
  unfold verify
  simp only [← parse?_eq_some_iff]
  cases Stored.parse? encoded <;> simp

/-- A text spells one hash. -/
theorem Spells.unique {s' : Stored} (h : Spells encoded s) (h' : Spells encoded s') : s = s' :=
  Option.some.inj ((parse?_eq_some_iff.mpr h).symm.trans (parse?_eq_some_iff.mpr h'))

/-- **What is stored for a new password spells its salt, its rounds and the key derived with
them.** -/
theorem spells_hashWith {rounds : Nat} (hpos : 0 < rounds) (hmax : rounds ≤ 0xffffffff)
    (salt : Bytes) (password : String) : Spells (hashWith rounds salt password)
      ⟨rounds, salt, Pbkdf2.keyOf (Bytes.utf8 password) salt rounds keyLength⟩ := by
  refine ⟨toString rounds, ?_, Text.numeral_toString rounds, hpos, hmax⟩
  unfold hashWith render
  rw [Pbkdf2.derive_eq, ← String.toList_inj, String.toList_intercalate]
  simp [List.intercalate, show toString "$" = "$" from rfl, show toString scheme = scheme from rfl]

/-- What is stored for a new account belongs to its password. -/
theorem verify_hash (salt : Bytes) (password : String) :
    verify (hash salt password) password = true := by
  have hspells : Spells (hash salt password) ⟨defaultRounds, salt,
      Pbkdf2.keyOf (Bytes.utf8 password) salt defaultRounds keyLength⟩ :=
    spells_hashWith (by decide) (by decide) salt password
  refine verify_eq_true_iff.mpr ⟨_, hspells, matches_eq_true_iff.mpr ⟨?_, ?_⟩⟩
  · refine List.ne_nil_of_length_pos ?_
    rw [Pbkdf2.length_keyOf]
    decide
  · rw [Pbkdf2.length_keyOf]

/-- **The passwords that every text is a hash of.** A text verifies a password just if it spells
rounds, salt and a key that is not empty, and the password, the salt and the rounds give the key. What
is stored for a new password verifies it, and another one just if both give one key. -/
theorem password_hash_grammar :
    (∀ encoded password, verify encoded password = true ↔ ∃ s, Spells encoded s ∧ s.key ≠ [] ∧
      Pbkdf2.keyOf (Bytes.utf8 password) s.salt s.rounds s.key.length = s.key) ∧
    ∀ (password : String) (salt : Bytes) (rounds : Nat), 0 < rounds → rounds ≤ 0xffffffff →
      verify (hashWith rounds salt password) password = true ∧
      ∀ other, verify (hashWith rounds salt password) other = true ↔
        Pbkdf2.keyOf (Bytes.utf8 other) salt rounds keyLength =
          Pbkdf2.keyOf (Bytes.utf8 password) salt rounds keyLength := by
  constructor
  · intro encoded password
    simp only [verify_eq_true_iff, matches_eq_true_iff]
  · intro password salt rounds hpos hmax
    have hspells := spells_hashWith hpos hmax salt password
    have hlength : (Pbkdf2.keyOf (Bytes.utf8 password) salt rounds keyLength).length =
        keyLength := by
      rw [← Pbkdf2.derive_eq, Pbkdf2.length_derive]
    have hother : ∀ other, verify (hashWith rounds salt password) other = true ↔
        Pbkdf2.keyOf (Bytes.utf8 other) salt rounds keyLength =
          Pbkdf2.keyOf (Bytes.utf8 password) salt rounds keyLength := by
      intro other
      rw [verify_eq_true_iff]
      constructor
      · rintro ⟨s, hs, hmatches⟩
        obtain rfl := hs.unique hspells
        have hkey := (matches_eq_true_iff.mp hmatches).2
        rwa [hlength] at hkey
      · intro hkeys
        refine ⟨_, hspells, matches_eq_true_iff.mpr ⟨?_, ?_⟩⟩
        · refine List.ne_nil_of_length_pos ?_
          rw [hlength]
          decide
        · rw [hlength, hkeys]
    exact ⟨(hother password).mpr rfl, hother⟩

/-- One round and a salt of sixteen zero bytes tell two passwords apart. -/
theorem password_hash_of_zeros :
    verify (hashWith 1 (List.replicate 16 0) "hunter2") "hunter2" = true ∧
      verify (hashWith 1 (List.replicate 16 0) "hunter2") "hunter3" = false := by
  obtain ⟨hself, hother⟩ := password_hash_grammar.2 "hunter2" (List.replicate 16 0) 1 (by decide)
    (by decide)
  refine ⟨hself, Bool.eq_false_iff.mpr fun h => ?_⟩
  exact absurd ((hother "hunter3").mp h) (by decide +kernel)

end Depot.Credential.Password
