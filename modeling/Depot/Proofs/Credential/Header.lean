import Depot.Credential.Header
import Depot.Proofs.Bytes.Base64
import Depot.Proofs.Text.Append

/-!
# The grammar of Basic headers

A header is read by cutting it: at its ends, at the first space, at the ends of the digits, and what
the digits stand for at the first colon. Each cut can be undone in one way only, and base 64 is read
canonically, so that a header is accepted just if it is credentials written down.

Headlines
* **`Carries`** is the grammar: a header that carries credentials.
* **`parseBasic_eq_ok_iff`**: reading a header gives the credentials that it carries.
* **`Flawed`**: digits that are wrong in themselves; **`Flawed.ne_encodeWith`**.
* **`basic_header_grammar`**: what every header is read as.
-/

namespace Depot.Credential

open Base64 (Alphabet encodePadded encodeWith)
open Registry (Refusal)
open Text (cut cut_eq_some_iff isBlank sameLetters trim)

variable {header digits text : String} {l : Login} {a : Alphabet} {b : Bytes}

/-- A header that carries credentials: the scheme, a space, and name, colon and password in padded
base 64 of either alphabet. White space around the header and around the digits does not count. -/
def Carries (header : String) (l : Login) : Prop :=
  ∃ scheme digits a, trim header = scheme ++ " " ++ digits ∧ ' ' ∉ scheme.toList ∧
    sameLetters scheme "basic" = true ∧
    trim digits = encodePadded a (Bytes.utf8 (l.user ++ ":" ++ l.password)) ∧
    ':' ∉ l.user.toList

/-! ### Credentials in digits -/

/-- Both alphabets are read. -/
theorem decodeEither?_eq_some_iff :
    decodeEither? digits = some b ↔ ∃ a, digits = encodePadded a b := by
  unfold decodeEither?
  constructor
  · intro h
    rcases Option.or_eq_some_iff.mp h with hstandard | ⟨-, hurlSafe⟩
    · exact ⟨.standard, Base64.decodePadded?_eq_some_iff.mp hstandard⟩
    · exact ⟨.urlSafe, Base64.decodePadded?_eq_some_iff.mp hurlSafe⟩
  · rintro ⟨a, h⟩
    have hread := Base64.decodePadded?_eq_some_iff.mpr h
    cases a with
    | standard => rw [hread, Option.some_or]
    | urlSafe =>
      -- Digits that stand in both alphabets are tried in the standard one first.
      cases hstandard : Base64.decodePadded? .standard digits with
      | none => rw [Option.none_or, hread]
      | some b' => rw [Option.some_or, Base64.decodePadded?_unique hstandard hread]

/-- Name and password are apart at the first colon. -/
theorem splitLogin?_eq_some_iff : splitLogin? text = some l ↔
    text = l.user ++ ":" ++ l.password ∧ ':' ∉ l.user.toList := by
  unfold splitLogin?
  rw [Option.map_eq_some_iff]
  constructor
  · rintro ⟨⟨user, password⟩, hcut, rfl⟩
    obtain ⟨hparts, hcolon⟩ := cut_eq_some_iff.mp hcut
    refine ⟨String.toList_injective ?_, ?_⟩
    · simp [hparts]
    · rwa [String.toList_ofList]
  · rintro ⟨rfl, hcolon⟩
    refine ⟨(l.user.toList, l.password.toList), cut_eq_some_iff.mpr ⟨by simp, hcolon⟩, ?_⟩
    simp

theorem loginOf?_eq_some_iff : loginOf? digits = some l ↔
    (∃ a, trim digits = encodePadded a (Bytes.utf8 (l.user ++ ":" ++ l.password))) ∧
      ':' ∉ l.user.toList := by
  unfold loginOf?
  simp only [Option.bind_eq_some_iff, decodeEither?_eq_some_iff, Bytes.ofUtf8?_eq_some_iff,
    splitLogin?_eq_some_iff]
  constructor
  · rintro ⟨text, ⟨b, hdigits, rfl⟩, rfl, hcolon⟩
    exact ⟨hdigits, hcolon⟩
  · rintro ⟨hdigits, hcolon⟩
    exact ⟨_, ⟨_, hdigits, rfl⟩, rfl, hcolon⟩

/-! ### Headers -/

theorem parseBasic_of_blank (h : trim header = "") : parseBasic header = .error .missing := by
  unfold parseBasic
  simp [h]

theorem parseBasic_of_cut_eq_none (h : trim header ≠ "")
    (hcut : cut ' ' (trim header).toList = none) : parseBasic header = .error .malformed := by
  unfold parseBasic
  simp [h, hcut]

/-- What a header with a scheme and digits is read as. -/
theorem parseBasic_of_cut {scheme digits : List Char} (h : trim header ≠ "")
    (hcut : cut ' ' (trim header).toList = some (scheme, digits)) : parseBasic header =
      if sameLetters (String.ofList scheme) "basic" = true then
        (loginOf? (String.ofList digits)).elim (.error .malformed) .ok
      else .error .malformed := by
  unfold parseBasic
  simp only [hcut]
  rw [if_neg (by simpa using h)]
  cases loginOf? (String.ofList digits) with
  | none => rfl
  | some login => rfl

/-- At the first space of a header its scheme ends. -/
theorem cut_header {scheme : String} (h : trim header = scheme ++ " " ++ digits)
    (hscheme : ' ' ∉ scheme.toList) :
    trim header ≠ "" ∧ cut ' ' (trim header).toList = some (scheme.toList, digits.toList) := by
  constructor
  · rw [h]
    simp
  · rw [h]
    exact cut_eq_some_iff.mpr ⟨by simp, hscheme⟩

/-- **Reading a header gives the credentials that it carries.** -/
theorem parseBasic_eq_ok_iff : parseBasic header = .ok l ↔ Carries header l := by
  constructor
  · intro h
    have hne : trim header ≠ "" := by
      intro hblank
      rw [parseBasic_of_blank hblank] at h
      exact nomatch h
    cases hcut : cut ' ' (trim header).toList with
    | none =>
      rw [parseBasic_of_cut_eq_none hne hcut] at h
      exact nomatch h
    | some parts =>
      obtain ⟨scheme, digits⟩ := parts
      obtain ⟨hparts, hspace⟩ := cut_eq_some_iff.mp hcut
      rw [parseBasic_of_cut hne hcut] at h
      split_ifs at h with hscheme
      cases hlogin : loginOf? (String.ofList digits) with
      | none =>
        rw [hlogin] at h
        exact nomatch h
      | some login =>
        rw [hlogin] at h
        obtain rfl := Except.ok.inj h
        obtain ⟨⟨a, hdigits⟩, hcolon⟩ := loginOf?_eq_some_iff.mp hlogin
        refine ⟨_, _, a, String.toList_injective ?_, ?_, hscheme, hdigits, hcolon⟩
        · simp [hparts]
        · rwa [String.toList_ofList]
  · rintro ⟨scheme, digits, a, hparts, hspace, hscheme, hdigits, hcolon⟩
    obtain ⟨hne, hcut⟩ := cut_header hparts hspace
    rw [parseBasic_of_cut hne hcut, String.ofList_toList, String.ofList_toList, if_pos hscheme,
      loginOf?_eq_some_iff.mpr ⟨⟨a, hdigits⟩, hcolon⟩]
    rfl

/-- A header is missing, carries credentials or is malformed. -/
theorem parseBasic_cases (header : String) : parseBasic header = .error .missing ∧ trim header = "" ∨
    trim header ≠ "" ∧ ((∃ l, parseBasic header = .ok l) ∨ parseBasic header = .error .malformed) := by
  by_cases h : trim header = ""
  · exact .inl ⟨parseBasic_of_blank h, h⟩
  · refine .inr ⟨h, ?_⟩
    cases hcut : cut ' ' (trim header).toList with
    | none => exact .inr (parseBasic_of_cut_eq_none h hcut)
    | some parts =>
      rw [parseBasic_of_cut h hcut]
      split
      · cases loginOf? (String.ofList parts.2) with
        | none => exact .inr rfl
        | some login => exact .inl ⟨login, rfl⟩
      · exact .inr rfl

theorem parseBasic_eq_missing_iff : parseBasic header = .error .missing ↔ trim header = "" := by
  rcases parseBasic_cases header with ⟨h, hblank⟩ | ⟨hne, ⟨l, h⟩ | h⟩
  · simp [h, hblank]
  · simp [h, hne]
  · simp [h, hne]

/-- What carries no credentials is malformed, unless it is missing. -/
theorem parseBasic_eq_malformed_iff : parseBasic header = .error .malformed ↔
    trim header ≠ "" ∧ ∀ l, ¬ Carries header l := by
  simp only [← parseBasic_eq_ok_iff]
  rcases parseBasic_cases header with ⟨h, hblank⟩ | ⟨hne, ⟨l, h⟩ | h⟩
  · simp [h, hblank]
  · simp [h]
  · simp [h, hne]

/-! ### Credentials that are written -/

/-- No digit of base 64 is white space. -/
theorem isBlank_of_mem_encodeWith {c : Char} (hc : c ∈ encodeWith a ['='] b) :
    isBlank c = false := by
  rcases Base64.mem_encodeWith hc with rfl | ⟨n, hn⟩
  · rfl
  · have hall : ∀ (a : Alphabet) (k : Fin 128), (a.value? (Char.ofNat k)).isSome = true →
        isBlank (Char.ofNat k) = false := by
      intro a
      cases a <;> decide +kernel
    have hk := hall a ⟨c.toNat, Base64.toNat_lt_of_value? hn⟩
    rw [Char.ofNat_toNat, hn] at hk
    exact hk rfl

/-- There is nothing to trim off digits. -/
theorem trim_encodePadded (a : Alphabet) (b : Bytes) :
    trim (encodePadded a b) = encodePadded a b := by
  unfold trim encodePadded
  rw [String.toList_ofList, Text.stripWhile_eq_self fun c hc => isBlank_of_mem_encodeWith hc]

theorem encodeWith_ne_nil (hb : b ≠ []) : encodeWith a ['='] b ≠ [] := by
  intro h
  have hread := Base64.decodePaddedList?_eq_some_iff.mpr h.symm
  exact hb (Option.some.inj hread).symm

/-- There is nothing to trim off a header that is written. -/
theorem trim_header (l : Login) (a : Alphabet) : trim (l.header a) = l.header a := by
  have hbytes : Bytes.utf8 (l.user ++ ":" ++ l.password) ≠ [] := by
    intro h
    have hnothing : l.user ++ ":" ++ l.password = "" := Bytes.utf8_injective h
    simpa using congrArg String.toList hnothing
  have hdigits := encodeWith_ne_nil (a := a) hbytes
  have hlist : (l.header a).toList =
      "Basic ".toList ++ encodeWith a ['='] (Bytes.utf8 (l.user ++ ":" ++ l.password)) := by
    show ("Basic " ++ String.ofList _).toList = _
    rw [String.toList_append, String.toList_ofList, String.toList_ofList]
  have hlast : (l.header a).toList.getLast? = some (List.getLast _ hdigits) := by
    rw [hlist, List.getLast?_append, List.getLast?_eq_some_getLast hdigits, Option.some_or]
  have hstays := isBlank_of_mem_encodeWith (List.getLast_mem hdigits)
  have hfirst : (l.header a).toList.dropWhile isBlank = (l.header a).toList := by
    rw [hlist]
    exact List.dropWhile_cons_of_neg (by decide)
  unfold trim
  rw [Text.stripWhile_of_getLast? hlast hstays, hfirst, String.ofList_toList]

/-- Credentials that are written down are carried, if a colon can end the name. -/
theorem carries_header (l : Login) (a : Alphabet) (h : ':' ∉ l.user.toList) :
    Carries (l.header a) l := by
  refine ⟨"Basic", encodePadded a (Bytes.utf8 (l.user ++ ":" ++ l.password)), a, ?_, by decide,
    by decide, trim_encodePadded a _, h⟩
  rw [trim_header]
  rfl

/-! ### Digits that carry nothing -/

/-- Digits that are wrong in themselves, whatever they stand for. -/
inductive Flawed (digits : List Char) : Prop
  /-- A digit of the one alphabet stands beside one of the other. -/
  | mixed {c d : Char} (standard : c = '+' ∨ c = '/') (urlSafe : d = '-' ∨ d = '_')
      (hc : c ∈ digits) (hd : d ∈ digits)
  /-- Padding is missing: the last group is not whole. -/
  | unpadded (h : digits.length % 4 ≠ 0)
  /-- The last byte ends inside the second digit of its group, and the bits after it are not all
  zero. -/
  | spareOfOne {before : List Char} {c d : Char} {a : Alphabet} {n : UInt8}
      (h : digits = before ++ [c, d, '=', '=']) (hd : a.value? d = some n) (spare : n % 16 ≠ 0)
  /-- The last byte ends inside the third digit of its group, and the bits after it are not all
  zero. -/
  | spareOfTwo {before : List Char} {c d e : Char} {a : Alphabet} {n : UInt8}
      (h : digits = before ++ [c, d, e, '=']) (he : a.value? e = some n) (spare : n % 4 ≠ 0)

theorem eq_standard_of_mem {c : Char} (h : c ∈ encodeWith a ['='] b) (hc : c = '+' ∨ c = '/') :
    a = .standard := by
  rcases Base64.mem_encodeWith h with rfl | ⟨n, hn⟩
  · exact absurd hc (by decide)
  · rcases hc with rfl | rfl <;> cases a
    · rfl
    · exact nomatch hn
    · rfl
    · exact nomatch hn

theorem eq_urlSafe_of_mem {c : Char} (h : c ∈ encodeWith a ['='] b) (hc : c = '-' ∨ c = '_') :
    a = .urlSafe := by
  rcases Base64.mem_encodeWith h with rfl | ⟨n, hn⟩
  · exact absurd hc (by decide)
  · rcases hc with rfl | rfl <;> cases a
    · exact nomatch hn
    · rfl
    · exact nomatch hn
    · rfl

/-- **Flawed digits are the padded form of no bytes.** -/
theorem Flawed.ne_encodeWith {l : List Char} (h : Flawed l) (a : Alphabet) (b : Bytes) :
    l ≠ encodeWith a ['='] b := by
  rintro rfl
  cases h with
  | mixed standard urlSafe hc hd =>
    exact nomatch (eq_standard_of_mem hc standard).symm.trans (eq_urlSafe_of_mem hd urlSafe)
  | unpadded h => exact h (Base64.length_encodeWith a b)
  | spareOfOne h hd spare => exact spare (Base64.spare_of_one h.symm hd)
  | spareOfTwo h he spare => exact spare (Base64.spare_of_two h.symm he)

theorem not_carries_of_flawed {scheme : String} (h : trim header = scheme ++ " " ++ digits)
    (hscheme : ' ' ∉ scheme.toList) (hflawed : Flawed (trim digits).toList) (l : Login) :
    ¬ Carries header l := by
  rintro ⟨scheme', digits', a, hparts, hspace, -, hdigits, -⟩
  have hcut := (cut_header hparts hspace).2.symm.trans (cut_header h hscheme).2
  obtain rfl : digits' = digits :=
    String.toList_injective (Prod.mk.inj (Option.some.inj hcut)).2
  refine hflawed.ne_encodeWith a (Bytes.utf8 (l.user ++ ":" ++ l.password)) ?_
  rw [hdigits]
  exact String.toList_ofList

/-! ### What every header is read as -/

/-- **Basic headers have one grammar.** A header gives the credentials that it carries, is missing
just if it is blank, and is malformed in every other case. In particular credentials are read back
from the header written for them in either alphabet, and digits that mix the alphabets, lack padding
or have bits left over are malformed. -/
theorem basic_header_grammar :
    (∀ header l, parseBasic header = .ok l ↔ Carries header l) ∧
    (∀ header, parseBasic header = .error .missing ↔ trim header = "") ∧
    (∀ header, parseBasic header = .error .malformed ↔
      trim header ≠ "" ∧ ∀ l, ¬ Carries header l) ∧
    (∀ (l : Login) (a : Alphabet), ':' ∉ l.user.toList → parseBasic (l.header a) = .ok l) ∧
    ∀ header scheme digits, trim header = scheme ++ " " ++ digits → ' ' ∉ scheme.toList →
      Flawed (trim digits).toList → parseBasic header = .error .malformed := by
  refine ⟨fun _ _ => parseBasic_eq_ok_iff, fun _ => parseBasic_eq_missing_iff,
    fun _ => parseBasic_eq_malformed_iff, ?_, ?_⟩
  · intro l a h
    exact parseBasic_eq_ok_iff.mpr (carries_header l a h)
  · intro header scheme digits h hscheme hflawed
    exact parseBasic_eq_malformed_iff.mpr
      ⟨(cut_header h hscheme).1, not_carries_of_flawed h hscheme hflawed⟩

/-- A password with a colon is read back, and digits with each of the flaws are malformed. -/
theorem basic_header_grammar_in_use :
    parseBasic (Login.header ⟨"u", "p:~?"⟩ .urlSafe) = .ok ⟨"u", "p:~?"⟩ ∧
      parseBasic "Basic dTp+-w==" = .error .malformed ∧
      parseBasic "Basic dTpwPw" = .error .malformed ∧
      parseBasic "Basic dTpwOr==" = .error .malformed ∧
      parseBasic "Basic dTpwOnF=" = .error .malformed := by
  obtain ⟨-, -, -, hread, hrefused⟩ := basic_header_grammar
  refine ⟨hread ⟨"u", "p:~?"⟩ .urlSafe (by decide), ?_, ?_, ?_, ?_⟩
  · refine hrefused _ "Basic" "dTp+-w==" (by decide +kernel) (by decide) ?_
    exact .mixed (c := '+') (d := '-') (.inl rfl) (.inl rfl) (by decide +kernel) (by decide +kernel)
  · refine hrefused _ "Basic" "dTpwPw" (by decide +kernel) (by decide) ?_
    exact .unpadded (by decide +kernel)
  · refine hrefused _ "Basic" "dTpwOr==" (by decide +kernel) (by decide) ?_
    have hlast : (trim "dTpwOr==").toList = "dTpw".toList ++ ['O', 'r', '=', '='] := by
      decide +kernel
    exact .spareOfOne (a := .standard) (n := 43) hlast (by decide) (by decide)
  · refine hrefused _ "Basic" "dTpwOnF=" (by decide +kernel) (by decide) ?_
    have hlast : (trim "dTpwOnF=").toList = "dTpw".toList ++ ['O', 'n', 'F', '='] := by
      decide +kernel
    exact .spareOfTwo (a := .standard) (n := 5) hlast (by decide) (by decide)

end Depot.Credential
