import Depot.Bytes.Percent
import Depot.Proofs.Text.Append

/-!
# Percent encoding is undone by decoding

An encoded text has the characters that are allowed, as they are, and an escape of two upper-case
digits for each other byte. Where the percent sign is not allowed every percent sign begins an
escape, so decoding gives the bytes back, and texts that are encoded alike are equal.

Headlines
* **`encodeWith_of_ascii`**: characters that are allowed are not escaped.
* **`Escaped`**, **`escaped_encodeWith`**: what an encoded text consists of.
* **`decode_encodeWith`**: decoding an encoded text gives its bytes back.
* **`encodeWith_injective`**: so texts that are encoded alike are equal.
-/

namespace Depot

/-- The UTF-8 form of a list of characters is that of each of them. -/
theorem Bytes.utf8_ofList (l : List Char) :
    utf8 (String.ofList l) = l.flatMap String.utf8EncodeChar := by
  unfold utf8
  rw [String.toByteArray_ofList, List.utf8Encode, List.data_toByteArray]

namespace Percent

open Bytes (utf8)

variable {allowed : Char → Bool} {b n : UInt8} {c : Char} {s t : String}

/-! ### ASCII characters -/

theorem utf8EncodeChar_of_ascii (hc : c.toNat < 128) :
    String.utf8EncodeChar c = [UInt8.ofNat c.toNat] :=
  if_pos (Nat.le_of_lt_succ hc)

theorem toNat_ofNat_of_ascii (hc : c.toNat < 128) : (UInt8.ofNat c.toNat).toNat = c.toNat := by
  rw [UInt8.toNat_ofNat']
  exact Nat.mod_eq_of_lt (Nat.lt_trans hc (by decide))

theorem byte_of_ascii (hc : c.toNat < 128) (ha : allowed c = true) :
    byte allowed (UInt8.ofNat c.toNat) = [c] := by
  have hlt : UInt8.ofNat c.toNat < 0x80 := by
    rw [UInt8.lt_iff_toNat_lt, toNat_ofNat_of_ascii hc]
    exact hc
  unfold byte
  rw [toNat_ofNat_of_ascii hc, Char.ofNat_toNat, ha, decide_eq_true hlt]
  rfl

/-- **ASCII characters that are allowed are not escaped.** -/
theorem encodeWith_of_ascii {l : List Char} (h : ∀ c ∈ l, c.toNat < 128 ∧ allowed c = true) :
    encodeWith allowed (String.ofList l) = String.ofList l := by
  unfold encodeWith
  rw [Bytes.utf8_ofList]
  congr 1
  induction l with
  | nil => rfl
  | cons c l ih =>
    obtain ⟨hc, ha⟩ := h c List.mem_cons_self
    rw [List.flatMap_cons, List.flatMap_append, utf8EncodeChar_of_ascii hc, List.flatMap_singleton,
      byte_of_ascii hc ha, ih fun d hd => h d (List.mem_cons_of_mem c hd)]
    rfl

/-! ### What an encoded text consists of -/

/-- The digits of an escape. -/
def digits : List Char := "0123456789ABCDEF".toList

/-- A text of characters that stand for themselves and of escapes, each of a percent sign and two
upper-case digits. -/
inductive Escaped (plain : Char → Prop) : List Char → Prop
  /-- Nothing. -/
  | nil : Escaped plain []
  /-- A character that stands for itself, and what follows. -/
  | char {c : Char} {rest : List Char} (hc : plain c) (h : Escaped plain rest) :
    Escaped plain (c :: rest)
  /-- An escape, and what follows. -/
  | escape {high low : Char} {rest : List Char} (hhigh : high ∈ digits) (hlow : low ∈ digits)
    (h : Escaped plain rest) : Escaped plain ('%' :: high :: low :: rest)

namespace Escaped

variable {plain plain' : Char → Prop} {l k : List Char}

theorem append (hl : Escaped plain l) (hk : Escaped plain k) : Escaped plain (l ++ k) := by
  induction hl with
  | nil => exact hk
  | char hc _ ih => exact .char hc ih
  | escape hhigh hlow _ ih => exact .escape hhigh hlow ih

theorem imp (h : Escaped plain l) (hplain : ∀ c, plain c → plain' c) : Escaped plain' l := by
  induction h with
  | nil => exact .nil
  | char hc _ ih => exact .char (hplain _ hc) ih
  | escape hhigh hlow _ ih => exact .escape hhigh hlow ih

/-- A character that does not stand for itself, nor is in an escape, does not occur. -/
theorem not_mem (h : Escaped plain l) (hc : ¬ plain c) (hpercent : c ≠ '%') (hdigit : c ∉ digits) :
    c ∉ l := by
  induction h with
  | nil => exact List.not_mem_nil
  | char hd _ ih =>
    refine List.not_mem_cons_of_ne_of_not_mem ?_ ih
    rintro rfl
    exact hc hd
  | escape hhigh hlow _ ih =>
    refine List.not_mem_cons_of_ne_of_not_mem hpercent ?_
    refine List.not_mem_cons_of_ne_of_not_mem (fun he => hdigit (he ▸ hhigh)) ?_
    exact List.not_mem_cons_of_ne_of_not_mem (fun he => hdigit (he ▸ hlow)) ih

end Escaped

/-- The upper-case digits are those of escapes, and are read as their numbers. -/
theorem upperDigit_spec (hn : n < 16) : Hex.upperDigit n ∈ digits ∧
    (Hex.upperDigit n).toNat < 128 ∧ Hex.value? (Hex.upperDigit n) = some n := by
  have hall : ∀ k : Fin 16, Hex.upperDigit (.ofNat k) ∈ digits ∧
      (Hex.upperDigit (.ofNat k)).toNat < 128 ∧
        Hex.value? (Hex.upperDigit (.ofNat k)) = some (.ofNat k) := by
    decide
  have hk := hall ⟨n.toNat, UInt8.lt_iff_toNat_lt.mp hn⟩
  rwa [UInt8.ofNat_toNat] at hk

theorem high_lt (b : UInt8) : b / 16 < 16 := by
  have hb := b.toNat_lt
  rw [UInt8.lt_iff_toNat_lt, UInt8.toNat_div]
  exact Nat.div_lt_of_lt_mul (by simpa using hb)

theorem low_lt (b : UInt8) : b % 16 < 16 := by
  rw [UInt8.lt_iff_toNat_lt, UInt8.toNat_mod]
  exact Nat.mod_lt _ (by decide)

theorem high_add_low (b : UInt8) : 16 * (b / 16) + b % 16 = b := by
  apply UInt8.toNat_inj.mp
  have hb := b.toNat_lt
  simp only [UInt8.toNat_add, UInt8.toNat_mul, UInt8.toNat_div, UInt8.toNat_mod, UInt8.reduceToNat]
  omega

/-- **An encoded text has allowed ASCII characters and escapes.** -/
theorem escaped_encodeWith (allowed : Char → Bool) (s : String) :
    Escaped (fun c => allowed c = true) (encodeWith allowed s).toList := by
  unfold encodeWith
  rw [String.toList_ofList]
  induction utf8 s with
  | nil => exact .nil
  | cons b rest ih =>
    rw [List.flatMap_cons]
    unfold byte
    split
    · next hplain =>
      exact .char (Bool.and_eq_true_iff.mp hplain).2 ih
    · exact .escape (upperDigit_spec (high_lt b)).1 (upperDigit_spec (low_lt b)).1 ih

/-! ### Decoding -/

/-- A byte that begins no escape stands for itself. -/
theorem decode_cons_of_ne (hb : b ≠ 0x25) (rest : Bytes) :
    decode (b :: rest) = b :: decode rest := by
  rw [decode]
  exact fun _ _ _ he _ => hb he

/-- The written form of a byte is read as the byte, if the percent sign is written as an escape. -/
theorem decode_byte_append (h : allowed '%' = false) (b : UInt8) (rest : Bytes) :
    decode ((byte allowed b).flatMap String.utf8EncodeChar ++ rest) = b :: decode rest := by
  unfold byte
  split
  · next hplain =>
    obtain ⟨hlt, hallowed⟩ := Bool.and_eq_true_iff.mp hplain
    have hascii : b.toNat < 128 := UInt8.lt_iff_toNat_lt.mp (of_decide_eq_true hlt)
    have hcode : (Char.ofNat b.toNat).toNat = b.toNat :=
      (by decide : ∀ k < 128, (Char.ofNat k).toNat = k) b.toNat hascii
    have hne : b ≠ 0x25 := by
      rintro rfl
      exact Bool.noConfusion (h.symm.trans hallowed)
    rw [List.flatMap_singleton, utf8EncodeChar_of_ascii (hcode.symm ▸ hascii), hcode,
      UInt8.ofNat_toNat]
    exact decode_cons_of_ne hne rest
  · obtain ⟨-, hhigh, hvalue⟩ := upperDigit_spec (high_lt b)
    obtain ⟨-, hlow, hvalue'⟩ := upperDigit_spec (low_lt b)
    unfold escape
    rw [List.flatMap_cons, List.flatMap_cons, List.flatMap_singleton,
      utf8EncodeChar_of_ascii hhigh, utf8EncodeChar_of_ascii hlow,
      utf8EncodeChar_of_ascii (by decide : '%'.toNat < 128)]
    simp only [List.cons_append, List.nil_append]
    rw [show UInt8.ofNat '%'.toNat = 0x25 from rfl, decode, toNat_ofNat_of_ascii hhigh,
      toNat_ofNat_of_ascii hlow, Char.ofNat_toNat, Char.ofNat_toNat, hvalue, hvalue']
    exact congrArg (· :: decode rest) (high_add_low b)

/-- **Decoding an encoded text gives its bytes back.** -/
theorem decode_encodeWith (h : allowed '%' = false) (s : String) :
    decode (utf8 (encodeWith allowed s)) = utf8 s := by
  unfold encodeWith
  rw [Bytes.utf8_ofList]
  induction utf8 s with
  | nil => rfl
  | cons b rest ih => rw [List.flatMap_cons, List.flatMap_append, decode_byte_append h, ih]

/-- **Texts that are encoded alike are equal.** -/
theorem encodeWith_injective (h : allowed '%' = false)
    (he : encodeWith allowed s = encodeWith allowed t) : s = t := by
  refine Bytes.utf8_injective ?_
  rw [← decode_encodeWith h s, he, decode_encodeWith h t]

end Percent

end Depot
