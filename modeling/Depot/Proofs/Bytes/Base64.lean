import Depot.Bytes.Base64
import Mathlib.Tactic.SplitIfs

/-!
# Base 64 is canonical

The reader of digits, padded or not, accepts the written form of a byte string and nothing else:
each group of digits is that of the bytes it is read as, because the bits of a group are those of
its bytes and the bits to spare are required to be zero.

Headlines
* **`value?_eq_some_iff`**: a character has a number just if it is the digit for it.
* **`decodePadded?_eq_some_iff`**: exactly the padded form of a byte string is read as it.
* **`decode?_eq_some_iff`**: so is exactly its unpadded form, where no padding is asked for.
* **`decodePadded?_unique`**: no text is the padded form of two byte strings, not even in two
  alphabets.
* **`spare_of_one`**, **`spare_of_two`**: in a padded last group the bits to spare are zero.
* **`decode?_of_prefix`**: what the start of an unpadded form is read as.
-/

namespace Depot.Base64

variable {a a' : Alphabet} {c d e f : Char} {n m p q r s : UInt8} {b b' : Bytes} {l : List Char}

/-! ### Digits -/

theorem value?_digit (hn : n < 64) : a.value? (a.digit n) = some n := by
  have hall : ∀ (a : Alphabet) (k : Fin 64), a.value? (a.digit (.ofNat k)) = some (.ofNat k) := by
    intro a
    cases a <;> decide
  have hk := hall a ⟨n.toNat, UInt8.lt_iff_toNat_lt.mp hn⟩
  rwa [UInt8.ofNat_toNat] at hk

/-- Digits are ASCII characters. -/
theorem toNat_lt_of_value? (h : a.value? c = some n) : c.toNat < 128 := by
  have hle : ∀ {last : Char}, c ≤ last → last.toNat < 128 → c.toNat < 128 := fun hc hlast =>
    Nat.lt_of_le_of_lt (UInt32.le_iff_toNat_le.mp hc) hlast
  unfold Alphabet.value? at h
  split_ifs at h with hupper hlower hdecimal hfirst hsecond
  · exact hle hupper.2 (by decide)
  · exact hle hlower.2 (by decide)
  · exact hle hdecimal.2 (by decide)
  · rw [hfirst]
    cases a <;> decide
  · rw [hsecond]
    cases a <;> decide

/-- **A character has a number just if it is the digit for it.** -/
theorem value?_eq_some_iff : a.value? c = some n ↔ n < 64 ∧ c = a.digit n := by
  constructor
  · intro h
    have hall : ∀ (a : Alphabet) (k : Fin 128), ((a.value? (Char.ofNat k)).all fun m =>
        decide (m < 64) && Char.ofNat k == a.digit m) = true := by
      intro a
      cases a <;> decide
    have hc := hall a ⟨c.toNat, toNat_lt_of_value? h⟩
    dsimp only at hc
    rw [Char.ofNat_toNat, h] at hc
    simpa using hc
  · rintro ⟨hn, rfl⟩
    exact value?_digit hn

/-- A digit of both alphabets has one number. -/
theorem value?_unique (h : a.value? c = some n) (h' : a'.value? c = some m) : n = m := by
  have hapart : ∀ a a' : Alphabet, a.last.1 ≠ a'.last.2 := by
    intro a a'
    cases a <;> cases a' <;> decide
  unfold Alphabet.value? at h h'
  split_ifs at h h' with hupper hlower hdecimal hfirst hfirst' hsecond' hsecond hfirst' hsecond'
  · exact Option.some.inj (h.symm.trans h')
  · exact Option.some.inj (h.symm.trans h')
  · exact Option.some.inj (h.symm.trans h')
  · exact Option.some.inj (h.symm.trans h')
  · exact absurd (hfirst.symm.trans hsecond') (hapart a a')
  · exact absurd (hfirst'.symm.trans hsecond) (hapart a' a)
  · exact Option.some.inj (h.symm.trans h')

/-- The sign that fills a group is no digit. -/
theorem value?_fill (a : Alphabet) : a.value? '=' = none := by
  cases a <;> rfl

theorem digit_ne_fill (hn : n < 64) : a.digit n ≠ '=' := by
  intro h
  have hvalue := value?_digit (a := a) hn
  rw [h, value?_fill] at hvalue
  exact nomatch hvalue

/-! ### The bits of a group -/

theorem toNat_first (x : UInt8) : (first x).toNat = x.toNat / 4 := rfl

theorem toNat_second (x y : UInt8) : (second x y).toNat = x.toNat % 4 * 16 + y.toNat / 16 := by
  have hy := y.toNat_lt
  show (x.toNat % 4 * 16 % 256 + y.toNat / 16) % 256 = _
  omega

theorem toNat_third (y z : UInt8) : (third y z).toNat = y.toNat % 16 * 4 + z.toNat / 64 := by
  have hz := z.toNat_lt
  show (y.toNat % 16 * 4 % 256 + z.toNat / 64) % 256 = _
  omega

theorem toNat_fourth (z : UInt8) : (fourth z).toNat = z.toNat % 64 := rfl

theorem first_lt (x : UInt8) : first x < 64 := by
  have hx := x.toNat_lt
  rw [UInt8.lt_iff_toNat_lt, toNat_first]
  show x.toNat / 4 < 64
  omega

theorem second_lt (x y : UInt8) : second x y < 64 := by
  have hy := y.toNat_lt
  rw [UInt8.lt_iff_toNat_lt, toNat_second]
  show x.toNat % 4 * 16 + y.toNat / 16 < 64
  omega

theorem third_lt (y z : UInt8) : third y z < 64 := by
  have hz := z.toNat_lt
  rw [UInt8.lt_iff_toNat_lt, toNat_third]
  show y.toNat % 16 * 4 + z.toNat / 64 < 64
  omega

theorem fourth_lt (z : UInt8) : fourth z < 64 := by
  rw [UInt8.lt_iff_toNat_lt, toNat_fourth]
  show z.toNat % 64 < 64
  omega

/-- The first byte of a group is in its first two digits. -/
theorem join_first (x y : UInt8) : first x * 4 + second x y / 16 = x := by
  have hx := x.toNat_lt
  have hy := y.toNat_lt
  apply UInt8.toNat_inj.mp
  show ((first x).toNat * 4 % 256 + (second x y).toNat / 16) % 256 = _
  rw [toNat_first, toNat_second]
  omega

/-- The second byte of a group is in its second and its third digit. -/
theorem join_second (x y z : UInt8) : second x y % 16 * 16 + third y z / 4 = y := by
  have hy := y.toNat_lt
  have hz := z.toNat_lt
  apply UInt8.toNat_inj.mp
  show ((second x y).toNat % 16 * 16 % 256 + (third y z).toNat / 4) % 256 = _
  rw [toNat_second, toNat_third]
  omega

/-- The third byte of a group is in its last two digits. -/
theorem join_third (y z : UInt8) : third y z % 4 * 64 + fourth z = z := by
  have hz := z.toNat_lt
  apply UInt8.toNat_inj.mp
  show ((third y z).toNat % 4 * 64 % 256 + (fourth z).toNat) % 256 = _
  rw [toNat_third, toNat_fourth]
  omega

/-- The digits of a group are those of the bytes that it is read as. -/
theorem split_join (hp : p < 64) (hq : q < 64) (hr : r < 64) (hs : s < 64) :
    first (p * 4 + q / 16) = p ∧ second (p * 4 + q / 16) (q % 16 * 16 + r / 4) = q ∧
      third (q % 16 * 16 + r / 4) (r % 4 * 64 + s) = r ∧ fourth (r % 4 * 64 + s) = s := by
  have hp' : p.toNat < 64 := UInt8.lt_iff_toNat_lt.mp hp
  have hq' : q.toNat < 64 := UInt8.lt_iff_toNat_lt.mp hq
  have hr' : r.toNat < 64 := UInt8.lt_iff_toNat_lt.mp hr
  have hs' : s.toNat < 64 := UInt8.lt_iff_toNat_lt.mp hs
  have hx : (p * 4 + q / 16).toNat = p.toNat * 4 + q.toNat / 16 := by
    show (p.toNat * 4 % 256 + q.toNat / 16) % 256 = _
    omega
  have hy : (q % 16 * 16 + r / 4).toNat = q.toNat % 16 * 16 + r.toNat / 4 := by
    show (q.toNat % 16 * 16 % 256 + r.toNat / 4) % 256 = _
    omega
  have hz : (r % 4 * 64 + s).toNat = r.toNat % 4 * 64 + s.toNat := by
    show (r.toNat % 4 * 64 % 256 + s.toNat) % 256 = _
    omega
  refine ⟨?_, ?_, ?_, ?_⟩
  all_goals apply UInt8.toNat_inj.mp
  · rw [toNat_first, hx]
    omega
  · rw [toNat_second, hx, hy]
    omega
  · rw [toNat_third, hy, hz]
    omega
  · rw [toNat_fourth, hz]
    omega

/-! ### Groups -/

theorem group?_digits (x y z : UInt8) : group? a (a.digit (first x)) (a.digit (second x y))
    (a.digit (third y z)) (a.digit (fourth z)) = some [x, y, z] := by
  simp only [group?, value?_digit (first_lt x), value?_digit (second_lt x y),
    value?_digit (third_lt y z), value?_digit (fourth_lt z), Option.bind_eq_bind,
    Option.bind_some, join_first, join_second, join_third]

theorem group?_eq_some_iff : group? a c d e f = some b ↔ ∃ x y z, b = [x, y, z] ∧
    c = a.digit (first x) ∧ d = a.digit (second x y) ∧ e = a.digit (third y z) ∧
      f = a.digit (fourth z) := by
  constructor
  · intro h
    simp only [group?, Option.bind_eq_bind, Option.bind_eq_some_iff, Option.some.injEq] at h
    obtain ⟨p, hc, q, hd, r, he, s, hf, rfl⟩ := h
    obtain ⟨hp, rfl⟩ := value?_eq_some_iff.mp hc
    obtain ⟨hq, rfl⟩ := value?_eq_some_iff.mp hd
    obtain ⟨hr, rfl⟩ := value?_eq_some_iff.mp he
    obtain ⟨hs, rfl⟩ := value?_eq_some_iff.mp hf
    obtain ⟨h1, h2, h3, h4⟩ := split_join hp hq hr hs
    exact ⟨_, _, _, rfl, by rw [h1], by rw [h2], by rw [h3], by rw [h4]⟩
  · rintro ⟨x, y, z, rfl, rfl, rfl, rfl, rfl⟩
    exact group?_digits x y z

/-- Two digits of a group are read if they hold nothing of its second byte. -/
theorem lastOne?_digits (x y : UInt8) : lastOne? a (a.digit (first x)) (a.digit (second x y)) =
    if y.toNat < 16 then some [x] else none := by
  have hspare : second x y % 16 = 0 ↔ y.toNat < 16 := by
    have hy := y.toNat_lt
    rw [← UInt8.toNat_inj, UInt8.toNat_mod, toNat_second]
    show (x.toNat % 4 * 16 + y.toNat / 16) % 16 = 0 ↔ _
    omega
  simp only [lastOne?, value?_digit (first_lt x), value?_digit (second_lt x y),
    Option.bind_eq_bind, Option.bind_some, hspare, join_first]

/-- Three digits of a group are read if they hold nothing of its third byte. -/
theorem lastTwo?_digits (x y z : UInt8) :
    lastTwo? a (a.digit (first x)) (a.digit (second x y)) (a.digit (third y z)) =
      if z.toNat < 64 then some [x, y] else none := by
  have hspare : third y z % 4 = 0 ↔ z.toNat < 64 := by
    have hz := z.toNat_lt
    rw [← UInt8.toNat_inj, UInt8.toNat_mod, toNat_third]
    show (y.toNat % 16 * 4 + z.toNat / 64) % 4 = 0 ↔ _
    omega
  simp only [lastTwo?, value?_digit (first_lt x), value?_digit (second_lt x y),
    value?_digit (third_lt y z), Option.bind_eq_bind, Option.bind_some, hspare, join_first,
    join_second]

theorem lastOne?_eq_some_iff : lastOne? a c d = some b ↔ ∃ x, b = [x] ∧
    c = a.digit (first x) ∧ d = a.digit (second x 0) := by
  constructor
  · intro h
    simp only [lastOne?, Option.bind_eq_bind, Option.bind_eq_some_iff] at h
    obtain ⟨p, hc, q, hd, h⟩ := h
    split_ifs at h with hspare
    obtain rfl := Option.some.inj h
    obtain ⟨hp, rfl⟩ := value?_eq_some_iff.mp hc
    obtain ⟨hq, rfl⟩ := value?_eq_some_iff.mp hd
    obtain ⟨h1, h2, -, -⟩ := split_join hp hq (r := 0) (s := 0) (by decide) (by decide)
    rw [hspare] at h2
    exact ⟨_, rfl, by rw [h1], by rw [show (0 : UInt8) = 0 * 16 + 0 / 4 from rfl, h2]⟩
  · rintro ⟨x, rfl, rfl, rfl⟩
    exact (lastOne?_digits x 0).trans (if_pos (by decide))

theorem lastTwo?_eq_some_iff : lastTwo? a c d e = some b ↔ ∃ x y, b = [x, y] ∧
    c = a.digit (first x) ∧ d = a.digit (second x y) ∧ e = a.digit (third y 0) := by
  constructor
  · intro h
    simp only [lastTwo?, Option.bind_eq_bind, Option.bind_eq_some_iff] at h
    obtain ⟨p, hc, q, hd, r, he, h⟩ := h
    split_ifs at h with hspare
    obtain rfl := Option.some.inj h
    obtain ⟨hp, rfl⟩ := value?_eq_some_iff.mp hc
    obtain ⟨hq, rfl⟩ := value?_eq_some_iff.mp hd
    obtain ⟨hr, rfl⟩ := value?_eq_some_iff.mp he
    obtain ⟨h1, h2, h3, -⟩ := split_join hp hq hr (s := 0) (by decide)
    rw [hspare] at h3
    exact ⟨_, _, rfl, by rw [h1], by rw [h2],
      by rw [show (0 : UInt8) = 0 * 64 + 0 from rfl, h3]⟩
  · rintro ⟨x, y, rfl, rfl, rfl, rfl⟩
    exact (lastTwo?_digits x y 0).trans (if_pos (by decide))

/-! ### Texts -/

/-- Exactly the padded digits of a byte string are read as it. -/
theorem decodePaddedList?_eq_some_iff :
    decodePaddedList? a l = some b ↔ l = encodeWith a ['='] b := by
  constructor
  · fun_induction decodePaddedList? a l generalizing b with
    | case1 =>
      intro h
      obtain rfl := Option.some.inj h
      rfl
    | case2 c d =>
      intro h
      obtain ⟨x, rfl, rfl, rfl⟩ := lastOne?_eq_some_iff.mp h
      rfl
    | case3 c d e hne =>
      intro h
      obtain ⟨x, y, rfl, rfl, rfl, rfl⟩ := lastTwo?_eq_some_iff.mp h
      rfl
    | case4 c d e f rest hone htwo ih =>
      intro h
      simp only [Option.bind_eq_bind, Option.bind_eq_some_iff, Option.some.injEq] at h
      obtain ⟨head, hhead, tail, htail, rfl⟩ := h
      obtain ⟨x, y, z, rfl, rfl, rfl, rfl, rfl⟩ := group?_eq_some_iff.mp hhead
      rw [ih htail]
      rfl
    | case5 => exact fun h => nomatch h
  · rintro rfl
    fun_induction encodeWith a ['='] b with
    | case1 => rfl
    | case2 x => exact lastOne?_eq_some_iff.mpr ⟨x, rfl, rfl, rfl⟩
    | case3 x y =>
      refine (decodePaddedList?.eq_3 a _ _ _ (digit_ne_fill (third_lt y 0))).trans ?_
      exact lastTwo?_eq_some_iff.mpr ⟨x, y, rfl, rfl, rfl, rfl⟩
    | case4 x y z rest ih =>
      rw [decodePaddedList?.eq_4, group?_digits, ih]
      · rfl
      · exact fun h _ _ => digit_ne_fill (third_lt y z) h
      · exact fun h _ => digit_ne_fill (fourth_lt z) h

/-- **Exactly the padded form of a byte string is read as it.** -/
theorem decodePadded?_eq_some_iff {text : String} :
    decodePadded? a text = some b ↔ text = encodePadded a b := by
  unfold decodePadded? encodePadded
  rw [decodePaddedList?_eq_some_iff]
  constructor
  · intro h
    rw [← h, String.ofList_toList]
  · rintro rfl
    rw [String.toList_ofList]

/-- Exactly the unpadded digits of a byte string are read as it. -/
theorem decodeList?_eq_some_iff : decodeList? a l = some b ↔ l = encodeWith a [] b := by
  constructor
  · fun_induction decodeList? a l generalizing b with
    | case1 =>
      intro h
      obtain rfl := Option.some.inj h
      rfl
    | case2 => exact fun h => nomatch h
    | case3 c d =>
      intro h
      obtain ⟨x, rfl, rfl, rfl⟩ := lastOne?_eq_some_iff.mp h
      rfl
    | case4 c d e =>
      intro h
      obtain ⟨x, y, rfl, rfl, rfl, rfl⟩ := lastTwo?_eq_some_iff.mp h
      rfl
    | case5 c d e f rest ih =>
      intro h
      simp only [Option.bind_eq_bind, Option.bind_eq_some_iff, Option.some.injEq] at h
      obtain ⟨head, hhead, tail, htail, rfl⟩ := h
      obtain ⟨x, y, z, rfl, rfl, rfl, rfl, rfl⟩ := group?_eq_some_iff.mp hhead
      rw [ih htail]
      rfl
  · rintro rfl
    fun_induction encodeWith a [] b with
    | case1 => rfl
    | case2 x => exact lastOne?_eq_some_iff.mpr ⟨x, rfl, rfl, rfl⟩
    | case3 x y => exact lastTwo?_eq_some_iff.mpr ⟨x, y, rfl, rfl, rfl, rfl⟩
    | case4 x y z rest ih =>
      rw [decodeList?, group?_digits, ih]
      rfl

/-- **Exactly the unpadded form of a byte string is read as it.** -/
theorem decode?_eq_some_iff {text : String} : decode? a text = some b ↔ text = encode a b := by
  unfold decode? encode
  rw [decodeList?_eq_some_iff, ← String.toList_inj, String.toList_ofList]

theorem group?_unique (h : group? a c d e f = some b) (h' : group? a' c d e f = some b') :
    b = b' := by
  simp only [group?, Option.bind_eq_bind, Option.bind_eq_some_iff, Option.some.injEq] at h h'
  obtain ⟨p, hp, q, hq, r, hr, s, hs, rfl⟩ := h
  obtain ⟨p', hp', q', hq', r', hr', s', hs', rfl⟩ := h'
  rw [value?_unique hp hp', value?_unique hq hq', value?_unique hr hr', value?_unique hs hs']

theorem lastOne?_unique (h : lastOne? a c d = some b) (h' : lastOne? a' c d = some b') :
    b = b' := by
  simp only [lastOne?, Option.bind_eq_bind, Option.bind_eq_some_iff] at h h'
  obtain ⟨p, hp, q, hq, h⟩ := h
  obtain ⟨p', hp', q', hq', h'⟩ := h'
  rw [value?_unique hp hp', value?_unique hq hq'] at h
  exact Option.some.inj (h.symm.trans h')

theorem lastTwo?_unique (h : lastTwo? a c d e = some b) (h' : lastTwo? a' c d e = some b') :
    b = b' := by
  simp only [lastTwo?, Option.bind_eq_bind, Option.bind_eq_some_iff] at h h'
  obtain ⟨p, hp, q, hq, r, hr, h⟩ := h
  obtain ⟨p', hp', q', hq', r', hr', h'⟩ := h'
  rw [value?_unique hp hp', value?_unique hq hq', value?_unique hr hr'] at h
  exact Option.some.inj (h.symm.trans h')

theorem decodePaddedList?_unique (h : decodePaddedList? a l = some b)
    (h' : decodePaddedList? a' l = some b') : b = b' := by
  fun_induction decodePaddedList? a l generalizing b b' with
  | case1 => exact Option.some.inj (h.symm.trans h')
  | case2 c d => exact lastOne?_unique h h'
  | case3 c d e hne =>
    rw [decodePaddedList?.eq_3 a' _ _ _ hne] at h'
    exact lastTwo?_unique h h'
  | case4 c d e f rest hone htwo ih =>
    rw [decodePaddedList?.eq_4 a' _ _ _ _ _ hone htwo] at h'
    simp only [Option.bind_eq_bind, Option.bind_eq_some_iff, Option.some.injEq] at h h'
    obtain ⟨head, hhead, tail, htail, rfl⟩ := h
    obtain ⟨head', hhead', tail', htail', rfl⟩ := h'
    rw [group?_unique hhead hhead', ih htail htail']
  | case5 => exact nomatch h

/-- **No text is the padded form of two byte strings**, not even in two alphabets. -/
theorem decodePadded?_unique {text : String} (h : decodePadded? a text = some b)
    (h' : decodePadded? a' text = some b') : b = b' :=
  decodePaddedList?_unique h h'

/-! ### What no padded form is -/

theorem length_encodeWith (a : Alphabet) (b : Bytes) : (encodeWith a ['='] b).length % 4 = 0 := by
  fun_induction encodeWith a ['='] b with
  | case1 => rfl
  | case2 x => simp
  | case3 x y => simp
  | case4 x y z rest ih =>
    simp only [List.length_cons]
    omega

/-- A written form has the digits of its alphabet and what fills the last group. -/
theorem mem_encodeWith_fill {fill : List Char} (hc : c ∈ encodeWith a fill b) :
    c ∈ fill ∨ ∃ n, a.value? c = some n := by
  have hdigit : ∀ {n}, n < 64 → ∃ m, a.value? (a.digit n) = some m := fun hn =>
    ⟨_, value?_digit hn⟩
  fun_induction encodeWith a fill b with
  | case1 => exact absurd hc List.not_mem_nil
  | case2 x =>
    simp only [List.cons_append, List.nil_append, List.mem_cons, List.mem_append] at hc
    rcases hc with rfl | rfl | hc | hc
    · exact .inr (hdigit (first_lt x))
    · exact .inr (hdigit (second_lt x 0))
    · exact .inl hc
    · exact .inl hc
  | case3 x y =>
    simp only [List.cons_append, List.nil_append, List.mem_cons] at hc
    rcases hc with rfl | rfl | rfl | hc
    · exact .inr (hdigit (first_lt x))
    · exact .inr (hdigit (second_lt x y))
    · exact .inr (hdigit (third_lt y 0))
    · exact .inl hc
  | case4 x y z rest ih =>
    simp only [List.mem_cons] at hc
    rcases hc with rfl | rfl | rfl | rfl | hc
    · exact .inr (hdigit (first_lt x))
    · exact .inr (hdigit (second_lt x y))
    · exact .inr (hdigit (third_lt y z))
    · exact .inr (hdigit (fourth_lt z))
    · exact ih hc

/-- A padded form has the digits of its alphabet and the sign that fills it. -/
theorem mem_encodeWith (hc : c ∈ encodeWith a ['='] b) : c = '=' ∨ ∃ n, a.value? c = some n :=
  (mem_encodeWith_fill hc).imp_left List.mem_singleton.mp

/-- The last group of a padded form is a padded form. -/
theorem last_group {before group : List Char} (hgroup : group.length = 4)
    (h : before ++ group = encodeWith a ['='] b) : ∃ tail, group = encodeWith a ['='] tail := by
  have hlength := congrArg List.length h
  have hfour := length_encodeWith a b
  rw [List.length_append, hgroup] at hlength
  fun_induction encodeWith a ['='] b generalizing before with
  | case1 => simp at hlength
  | case2 x =>
    obtain rfl : before = [] := List.length_eq_zero_iff.mp (by simpa using hlength)
    exact ⟨[x], h⟩
  | case3 x y =>
    obtain rfl : before = [] := List.length_eq_zero_iff.mp (by simpa using hlength)
    exact ⟨[x, y], h⟩
  | case4 x y z rest ih =>
    simp only [List.length_cons] at hlength hfour
    match before, h with
    | [], h =>
      have hrest : encodeWith a ['='] rest = [] :=
        List.length_eq_zero_iff.mp (by simpa using hlength.symm)
      rw [hrest] at h
      exact ⟨[x, y, z], h⟩
    | [_], _ | [_, _], _ | [_, _, _], _ =>
      simp only [List.length_cons, List.length_nil] at hlength
      omega
    | c :: d :: e :: f :: before, h =>
      simp only [List.cons_append, List.cons.injEq] at h
      refine ih h.2.2.2.2 ?_ (by omega)
      simp only [List.length_cons] at hlength
      omega

/-- In a last group of two digits the second one has no bits to spare. -/
theorem spare_of_one {before : List Char} (h : before ++ [c, d, '=', '='] = encodeWith a ['='] b)
    (hd : a'.value? d = some n) : n % 16 = 0 := by
  obtain ⟨tail, htail⟩ := last_group rfl h
  have hlast : lastOne? a c d = some tail := decodePaddedList?_eq_some_iff.mpr htail
  simp only [lastOne?, Option.bind_eq_bind, Option.bind_eq_some_iff] at hlast
  obtain ⟨p, -, q, hq, hlast⟩ := hlast
  rw [value?_unique hd hq]
  split_ifs at hlast with hspare
  exact hspare

/-- In a last group of three digits the third one has no bits to spare. -/
theorem spare_of_two {before : List Char} (h : before ++ [c, d, e, '='] = encodeWith a ['='] b)
    (he : a'.value? e = some n) : n % 4 = 0 := by
  obtain ⟨tail, htail⟩ := last_group rfl h
  have hfill : e = '=' → False := by
    rintro rfl
    rw [value?_fill] at he
    exact nomatch he
  have hlast := decodePaddedList?_eq_some_iff.mpr htail
  rw [decodePaddedList?.eq_3 a _ _ _ hfill] at hlast
  simp only [lastTwo?, Option.bind_eq_bind, Option.bind_eq_some_iff] at hlast
  obtain ⟨p, -, q, -, r, hr, hlast⟩ := hlast
  rw [value?_unique he hr]
  split_ifs at hlast with hspare
  exact hspare

/-! ### Digits cut short -/

/-- The first `k` digits of an unpadded form hold whole bytes: no digit is left alone, and the bits
that the last one holds of a byte that is cut off are zero. -/
def Whole (b : Bytes) (k : Nat) : Prop :=
  k % 4 ≠ 1 ∧ (b.getD (6 * k / 8) 0).toNat < 256 >>> (6 * k % 8)

instance (b : Bytes) (k : Nat) : Decidable (Whole b k) := inferInstanceAs (Decidable (_ ∧ _))

theorem whole_zero (b : Bytes) : Whole b 0 := ⟨by decide, UInt8.toNat_lt _⟩

theorem not_whole_one (b : Bytes) : ¬Whole b 1 := fun h => h.1 rfl

theorem whole_two_iff : Whole b 2 ↔ (b.getD 1 0).toNat < 16 := and_iff_right (by decide)

theorem whole_three_iff : Whole b 3 ↔ (b.getD 2 0).toNat < 64 := and_iff_right (by decide)

/-- After the first group the digits hold whole bytes just if those of the rest do. -/
theorem whole_add_four_iff {x y z : UInt8} {k : Nat} :
    Whole (x :: y :: z :: b) (k + 4) ↔ Whole b k := by
  have hbyte : 6 * (k + 4) / 8 = 6 * k / 8 + 3 := by omega
  have hspare : 6 * (k + 4) % 8 = 6 * k % 8 := by omega
  unfold Whole
  rw [Nat.add_mod_right, hbyte, hspare]
  rfl

theorem length_unpadded (a : Alphabet) (b : Bytes) :
    (encodeWith a [] b).length = (8 * b.length + 5) / 6 := by
  fun_induction encodeWith a [] b with
  | case1 => rfl
  | case2 x => simp
  | case3 x y => simp
  | case4 x y z rest ih =>
    simp only [List.length_cons, ih]
    omega

/-- The first digits of an unpadded form are read as the bytes that they hold, if these are
whole. -/
theorem decodeList?_take {k : Nat} (hk : k ≤ (encodeWith a [] b).length) :
    decodeList? a ((encodeWith a [] b).take k) =
      if Whole b k then some (b.take (6 * k / 8)) else none := by
  fun_induction encodeWith a [] b generalizing k with
  | case1 =>
    obtain rfl : k = 0 := by simpa using hk
    exact (if_pos (whole_zero [])).symm
  | case2 x =>
    match k, hk with
    | 0, _ => exact (if_pos (whole_zero _)).symm
    | 1, _ => exact (if_neg (not_whole_one _)).symm
    | 2, _ =>
      simp only [whole_two_iff]
      exact lastOne?_digits x 0
  | case3 x y =>
    match k, hk with
    | 0, _ => exact (if_pos (whole_zero _)).symm
    | 1, _ => exact (if_neg (not_whole_one _)).symm
    | 2, _ =>
      simp only [whole_two_iff]
      exact lastOne?_digits x y
    | 3, _ =>
      simp only [whole_three_iff]
      exact lastTwo?_digits x y 0
  | case4 x y z rest ih =>
    match k, hk with
    | 0, _ => exact (if_pos (whole_zero _)).symm
    | 1, _ => exact (if_neg (not_whole_one _)).symm
    | 2, _ =>
      simp only [whole_two_iff]
      exact lastOne?_digits x y
    | 3, _ =>
      simp only [whole_three_iff]
      exact lastTwo?_digits x y z
    | k + 4, hk =>
      have hbyte : 6 * (k + 4) / 8 = 6 * k / 8 + 3 := by omega
      simp only [List.take_succ_cons, decodeList?, group?_digits,
        ih (Nat.le_of_add_le_add_right hk), whole_add_four_iff, hbyte]
      split <;> rfl

/-- **The start of an unpadded form is read as the bytes that it holds**, if these are whole. -/
theorem decode?_of_prefix {text : String} (h : text.toList <+: (encode a b).toList) :
    decode? a text =
      if Whole b text.length then some (b.take (6 * text.length / 8)) else none := by
  unfold encode at h
  rw [String.toList_ofList] at h
  unfold decode?
  rw [← String.length_toList]
  generalize text.toList = digits at h
  have hdecode := decodeList?_take h.length_le
  rwa [← List.prefix_iff_eq_take.mp h] at hdecode

end Depot.Base64
