import Depot.Proofs.MessagePack.Forms

/-!
# Exactly the written forms are read

Whatever the reader takes off a byte string is a written form of the value that it gives: each
marker is that of the shape it announces, and each length and number is in a width that it fits. So
what has been read has lengths of 32 bits.

Headlines
* **`takeValue_eq_some_iff`**: the reader takes the written forms of a value and nothing else.
-/

namespace Depot.MessagePack

variable {depth n width : Nat} {marker : UInt8} {b rest : Bytes} {s : Shape} {v : Value}

/-! ### Numbers -/

/-- Only the low bytes of a number are written. -/
theorem bigEndian_add (width n k : Nat) :
    bigEndian width (n + k * 256 ^ width) = bigEndian width n := by
  induction width generalizing k with
  | zero => rfl
  | succ width ih =>
    have hbyte : ((n + k * 256 ^ (width + 1)) >>> (8 * width)).toUInt8 =
        (n >>> (8 * width)).toUInt8 := by
      apply UInt8.toNat_inj.mp
      show (n + k * 256 ^ (width + 1)) >>> (8 * width) % 256 = n >>> (8 * width) % 256
      have hpow : 2 ^ (8 * width) = 256 ^ width := by rw [Nat.pow_mul]
      rw [Nat.shiftRight_eq_div_pow, Nat.shiftRight_eq_div_pow, hpow, Nat.pow_succ,
        show k * (256 ^ width * 256) = (k * 256) * 256 ^ width by ring,
        Nat.add_mul_div_right _ _ (by positivity), Nat.add_mul_mod_self_right]
    rw [bigEndian, bigEndian, hbyte, Nat.pow_succ,
      show k * (256 ^ width * 256) = (k * 256) * 256 ^ width by ring, ih]

theorem gather_eq (b : Bytes) (acc : Nat) : gather acc b = gather 0 b + acc * 256 ^ b.length := by
  induction b generalizing acc with
  | nil => simp [gather]
  | cons d b ih =>
    show gather (256 * acc + d.toNat) b = gather (256 * 0 + d.toNat) b + _
    rw [ih, ih (256 * 0 + d.toNat), List.length_cons, Nat.pow_succ]
    ring

theorem gather_lt (b : Bytes) : gather 0 b < 256 ^ b.length := by
  induction b with
  | nil => exact Nat.one_pos
  | cons d b ih =>
    have hd : d.toNat < 256 := d.toNat_lt
    show gather (256 * 0 + d.toNat) b < _
    rw [gather_eq, List.length_cons, Nat.pow_succ]
    have hle : (256 * 0 + d.toNat + 1) * 256 ^ b.length ≤ 256 * 256 ^ b.length :=
      Nat.mul_le_mul_right _ (by omega)
    rw [Nat.add_mul, Nat.one_mul] at hle
    omega

/-- Bytes are those of the number that they make up. -/
theorem bigEndian_gather (b : Bytes) : bigEndian b.length (gather 0 b) = b := by
  induction b with
  | nil => rfl
  | cons d b ih =>
    have hgather : gather 0 (d :: b) = gather 0 b + d.toNat * 256 ^ b.length := by
      show gather (256 * 0 + d.toNat) b = _
      rw [gather_eq]
      ring
    have hbyte : (gather 0 (d :: b) >>> (8 * b.length)).toUInt8 = d := by
      apply UInt8.toNat_inj.mp
      show gather 0 (d :: b) >>> (8 * b.length) % 256 = d.toNat
      have hpow : 2 ^ (8 * b.length) = 256 ^ b.length := by rw [Nat.pow_mul]
      rw [Nat.shiftRight_eq_div_pow, hpow, hgather, Nat.add_mul_div_right _ _ (by positivity),
        Nat.div_eq_of_lt (gather_lt b), Nat.zero_add]
      exact Nat.mod_eq_of_lt d.toNat_lt
    rw [List.length_cons, bigEndian, hbyte, hgather, bigEndian_add, ih]

theorem takeBytes_eq_some_iff {t : Bytes} :
    takeBytes n b = some (t, rest) ↔ n = t.length ∧ b = t ++ rest := by
  constructor
  · intro h
    unfold takeBytes at h
    split_ifs at h with hle
    simp only [Option.some.injEq, Prod.mk.injEq] at h
    obtain ⟨rfl, rfl⟩ := h
    exact ⟨by simp [hle], (List.take_append_drop n b).symm⟩
  · rintro ⟨rfl, rfl⟩
    exact takeBytes_append t rest

theorem takeNat_eq_some_iff :
    takeNat width b = some (n, rest) ↔ n < 256 ^ width ∧ b = bigEndian width n ++ rest := by
  constructor
  · intro h
    obtain ⟨⟨digits, rest'⟩, hdigits, hn⟩ := Option.map_eq_some_iff.mp h
    obtain ⟨rfl, rfl⟩ := takeBytes_eq_some_iff.mp hdigits
    obtain ⟨rfl, rfl⟩ : gather 0 digits = n ∧ rest' = rest := by simpa [gather] using hn
    exact ⟨gather_lt digits, by rw [bigEndian_gather]⟩
  · rintro ⟨hlt, rfl⟩
    exact takeNat_bigEndian hlt rest

theorem form_of_takeInt {k : Int} (h : takeInt width b = some (k, rest)) :
    -256 ^ width ≤ 2 * k ∧ 2 * k < 256 ^ width ∧
      b = bigEndian width (k % 256 ^ width).toNat ++ rest := by
  obtain ⟨⟨n, rest'⟩, hn, hk⟩ := Option.map_eq_some_iff.mp h
  obtain ⟨hlt, rfl⟩ := takeNat_eq_some_iff.mp hn
  have hpow : ((256 ^ width : Nat) : Int) = 256 ^ width := by push_cast; rfl
  have hpow' : Nat.pow 256 width = 256 ^ width := rfl
  simp only [hpow', Prod.mk.injEq] at hk
  obtain ⟨hk, rfl⟩ := hk
  have hmod : (k % 256 ^ width).toNat = n := by
    have hn : (n : Int) % 256 ^ width = n := Int.emod_eq_of_lt (by omega) (by omega)
    rw [← hk]
    split_ifs
    · rw [hn, Int.toNat_natCast]
    · rw [hpow, Int.sub_emod_right, hn, Int.toNat_natCast]
  refine ⟨?_, ?_, by rw [hmod]⟩
  · rw [← hk]
    split_ifs <;> omega
  · rw [← hk]
    split_ifs <;> omega

/-! ### Markers -/

/-- A marker is one that announces the shape. -/
def Shape.MarkedBy (marker : UInt8) : Shape → Prop
  | .value .nil => marker = 0xc0
  | .value (.bool t) => marker = if t then 0xc3 else 0xc2
  | .value (.unsigned n) => n < 128 ∧ marker = 0 + n.toUInt8
  | .value (.signed k) => ∃ n < 32, k = .negSucc n ∧ marker = 0xff - n.toUInt8
  | .value _ => False
  | .unsigned width => (marker, width) ∈ [((0xcc : UInt8), 1), (0xcd, 2), (0xce, 4), (0xcf, 8)]
  | .signed width => (marker, width) ∈ [((0xd0 : UInt8), 1), (0xd1, 2), (0xd2, 4), (0xd3, 8)]
  | .float width => (marker, width) ∈ [((0xca : UInt8), 4), (0xcb, 8)]
  | .text n => n < 32 ∧ marker = 0xa0 + n.toUInt8
  | .array n => n < 16 ∧ marker = 0x90 + n.toUInt8
  | .map n => n < 16 ∧ marker = 0x80 + n.toUInt8
  | .extension n =>
    (marker, n) ∈ [((0xd4 : UInt8), 1), (0xd5, 2), (0xd6, 4), (0xd7, 8), (0xd8, 16)]
  | .sizedText width => (marker, width) ∈ [((0xd9 : UInt8), 1), (0xda, 2), (0xdb, 4)]
  | .sizedBinary width => (marker, width) ∈ [((0xc4 : UInt8), 1), (0xc5, 2), (0xc6, 4)]
  | .sizedArray width => (marker, width) ∈ [((0xdc : UInt8), 2), (0xdd, 4)]
  | .sizedMap width => (marker, width) ∈ [((0xde : UInt8), 2), (0xdf, 4)]
  | .sizedExtension width => (marker, width) ∈ [((0xc7 : UInt8), 1), (0xc8, 2), (0xc9, 4)]

instance (marker : UInt8) (s : Shape) : Decidable (s.MarkedBy marker) := by
  unfold Shape.MarkedBy
  split <;> infer_instance

theorem markedBy_of_shape? (h : shape? marker = some s) : s.MarkedBy marker := by
  have hall : ∀ k : Fin 256, ∀ s ∈ shape? (.ofNat k), s.MarkedBy (.ofNat k) := by
    decide +kernel
  have hmarked := hall ⟨marker.toNat, marker.toNat_lt⟩
  rw [UInt8.ofNat_toNat] at hmarked
  exact hmarked s h

/-! ### Values -/

/-- A reader takes forms of the values that it gives, in which values nest less than `depth` deep. -/
def TakesForms (depth : Nat) (one : Bytes → Option (Value × Bytes)) : Prop :=
  ∀ {b v rest}, one b = some (v, rest) → ∃ p, v.Form depth p ∧ b = p ++ rest

theorem forms_of_takeMany {α : Type} {form : α → Bytes → Prop} {one : Bytes → Option (α × Bytes)}
    (hone : ∀ {b a rest}, one b = some (a, rest) → ∃ p, form a p ∧ b = p ++ rest) {items : List α}
    (h : takeMany one n b = some (items, rest)) :
    n = items.length ∧ ∃ parts, List.Forall₂ form items parts ∧ b = parts.flatten ++ rest := by
  induction n generalizing b items with
  | zero =>
    obtain ⟨rfl, rfl⟩ : [] = items ∧ b = rest := by simpa [takeMany] using h
    exact ⟨rfl, [], .nil, rfl⟩
  | succ n ih =>
    simp only [takeMany, Option.bind_eq_bind, Option.bind_eq_some_iff, Prod.exists,
      Option.some.injEq, Prod.mk.injEq] at h
    obtain ⟨a, b', ha, items', rest', hitems, rfl, rfl⟩ := h
    obtain ⟨p, hp, rfl⟩ := hone ha
    obtain ⟨rfl, parts, hparts, rfl⟩ := ih hitems
    exact ⟨rfl, p :: parts, .cons hp hparts, by rw [List.flatten_cons, List.append_assoc]⟩

theorem forms_of_takePair {one : Bytes → Option (Value × Bytes)} (hone : TakesForms depth one)
    {e : Value × Value} (h : takePair one b = some (e, rest)) :
    ∃ p, (∃ k v, e.1.Form depth k ∧ e.2.Form depth v ∧ p = k ++ v) ∧ b = p ++ rest := by
  simp only [takePair, Option.bind_eq_bind, Option.bind_eq_some_iff, Prod.exists,
    Option.some.injEq, Prod.mk.injEq] at h
  obtain ⟨k, b', hk, v, rest', hv, rfl, rfl⟩ := h
  obtain ⟨p, hp, rfl⟩ := hone hk
  obtain ⟨q, hq, rfl⟩ := hone hv
  exact ⟨p ++ q, ⟨p, q, hp, hq, rfl⟩, by rw [List.append_assoc]⟩

theorem takeExtension_eq_some_iff : takeExtension n b = some (v, rest) ↔
    ∃ kind data, v = .extension kind data ∧ n = data.length ∧ b = kind :: data ++ rest := by
  constructor
  · intro h
    cases b with
    | nil => exact nomatch h
    | cons kind b =>
      obtain ⟨⟨data, rest'⟩, hdata, hv⟩ := Option.map_eq_some_iff.mp h
      obtain ⟨rfl, rfl⟩ := takeBytes_eq_some_iff.mp hdata
      obtain ⟨rfl, rfl⟩ : .extension kind data = v ∧ rest' = rest := by simpa using hv
      exact ⟨kind, data, rfl, rfl, rfl⟩
  · rintro ⟨kind, data, rfl, rfl, rfl⟩
    exact takeExtension_append kind data rest

/-! What follows a head is taken in the form of what it is the head of. -/

section

variable {h : Bytes} {one : Bytes → Option (Value × Bytes)}

theorem form_of_text (hhead : Headed 0xa0 32 [(0xd9, 1), (0xda, 2), (0xdb, 4)] n h)
    (ht : (takeBytes n b).map (fun (t, b) => (Value.text t, b)) = some (v, rest)) :
    ∃ p, v.Form (depth + 1) p ∧ h ++ b = p ++ rest := by
  obtain ⟨⟨t, rest'⟩, hbytes, hv⟩ := Option.map_eq_some_iff.mp ht
  obtain ⟨rfl, rfl⟩ : .text t = v ∧ rest' = rest := by simpa using hv
  obtain ⟨rfl, rfl⟩ := takeBytes_eq_some_iff.mp hbytes
  exact ⟨h ++ t, ⟨h, hhead, rfl⟩, (List.append_assoc ..).symm⟩

theorem form_of_array (hone : TakesForms depth one) (hdepth : 0 < depth)
    (hhead : Headed 0x90 16 [(0xdc, 2), (0xdd, 4)] n h)
    (hitems : (takeMany one n b).map (fun (vs, b) => (Value.array vs, b)) = some (v, rest)) :
    ∃ p, v.Form (depth + 1) p ∧ h ++ b = p ++ rest := by
  obtain ⟨⟨items, rest'⟩, hmany, hv⟩ := Option.map_eq_some_iff.mp hitems
  obtain ⟨rfl, rfl⟩ : .array items = v ∧ rest' = rest := by simpa using hv
  obtain ⟨rfl, parts, hparts, rfl⟩ := forms_of_takeMany hone hmany
  exact ⟨h ++ parts.flatten, ⟨hdepth, h, parts, hhead, hparts, rfl⟩, (List.append_assoc ..).symm⟩

theorem form_of_map (hone : TakesForms depth one) (hdepth : 0 < depth)
    (hhead : Headed 0x80 16 [(0xde, 2), (0xdf, 4)] n h)
    (hentries : (takeMany (takePair one) n b).map (fun (es, b) => (Value.map es, b)) =
      some (v, rest)) :
    ∃ p, v.Form (depth + 1) p ∧ h ++ b = p ++ rest := by
  obtain ⟨⟨entries, rest'⟩, hmany, hv⟩ := Option.map_eq_some_iff.mp hentries
  obtain ⟨rfl, rfl⟩ : .map entries = v ∧ rest' = rest := by simpa using hv
  obtain ⟨rfl, parts, hparts, rfl⟩ := forms_of_takeMany (forms_of_takePair hone) hmany
  exact ⟨h ++ parts.flatten, ⟨hdepth, h, parts, hhead, hparts, rfl⟩, (List.append_assoc ..).symm⟩

theorem form_of_extension (hdepth : 0 < depth) (hhead : ExtensionHead n h)
    (hdata : takeExtension n b = some (v, rest)) :
    ∃ p, v.Form (depth + 1) p ∧ h ++ b = p ++ rest := by
  obtain ⟨kind, data, rfl, rfl, rfl⟩ := takeExtension_eq_some_iff.mp hdata
  exact ⟨h ++ kind :: data, ⟨hdepth, h, hhead, rfl⟩, (List.append_assoc ..).symm⟩

end

/-- What a marker announces is taken in a form of the value. -/
theorem form_of_takeShape {one : Bytes → Option (Value × Bytes)} (hone : TakesForms depth one)
    (hmarked : s.MarkedBy marker) (hdepth : s.nests = true → 0 < depth)
    (h : takeShape one s b = some (v, rest)) :
    ∃ p, v.Form (depth + 1) p ∧ marker :: b = p ++ rest := by
  -- A length that follows the marker, and then what it is the length of.
  have hsized : ∀ {width n : Nat} {b b' : Bytes} {markers : List (UInt8 × Nat)},
      (marker, width) ∈ markers → takeNat width b = some (n, b') →
      ∃ h, Sized markers n h ∧ marker :: b = h ++ b' := by
    intro width n b b' markers hmem hn
    obtain ⟨hlt, rfl⟩ := takeNat_eq_some_iff.mp hn
    exact ⟨marker :: bigEndian width n, ⟨(marker, width), hmem, hlt, rfl⟩, rfl⟩
  cases s with
  | value u =>
    obtain ⟨rfl, rfl⟩ : u = v ∧ b = rest := by simpa [takeShape] using h
    refine ⟨[marker], ?_, rfl⟩
    cases u with
    | nil => exact congrArg ([·]) hmarked
    | bool t => exact congrArg ([·]) hmarked
    | unsigned n => exact .inl ⟨hmarked.1, congrArg ([·]) hmarked.2⟩
    | signed k =>
      obtain ⟨n, hn, hk, rfl⟩ := hmarked
      exact .inl ⟨n, hn, hk, rfl⟩
    | float | text | binary | array | map | extension => exact hmarked.elim
  | unsigned width =>
    obtain ⟨⟨n, rest'⟩, hn, hv⟩ := Option.map_eq_some_iff.mp h
    obtain ⟨rfl, rfl⟩ : .unsigned n = v ∧ rest' = rest := by simpa using hv
    obtain ⟨p, hp, hb⟩ := hsized hmarked hn
    exact ⟨p, .inr hp, hb⟩
  | signed width =>
    obtain ⟨⟨k, rest'⟩, hk, hv⟩ := Option.map_eq_some_iff.mp h
    obtain ⟨rfl, rfl⟩ : .signed k = v ∧ rest' = rest := by simpa using hv
    obtain ⟨hlow, hhigh, rfl⟩ := form_of_takeInt hk
    exact ⟨_, .inr ⟨(marker, width), hmarked, hlow, hhigh, rfl⟩, rfl⟩
  | float width =>
    obtain ⟨⟨bits, rest'⟩, hbits, hv⟩ := Option.map_eq_some_iff.mp h
    obtain ⟨rfl, rfl⟩ : .float bits = v ∧ rest' = rest := by simpa using hv
    obtain ⟨rfl, rfl⟩ := takeBytes_eq_some_iff.mp hbits
    refine ⟨marker :: bits, ?_, rfl⟩
    simp only [Shape.MarkedBy, List.mem_cons, Prod.mk.injEq, List.not_mem_nil, or_false] at hmarked
    rcases hmarked with ⟨rfl, hlength⟩ | ⟨rfl, hlength⟩
    · exact .inl ⟨hlength, rfl⟩
    · exact .inr ⟨hlength, rfl⟩
  | text n => exact form_of_text (.inl ⟨hmarked.1, congrArg ([·]) hmarked.2⟩) h
  | array n => exact form_of_array hone (hdepth rfl) (.inl ⟨hmarked.1, congrArg ([·]) hmarked.2⟩) h
  | map n => exact form_of_map hone (hdepth rfl) (.inl ⟨hmarked.1, congrArg ([·]) hmarked.2⟩) h
  | extension n => exact form_of_extension (hdepth rfl) (.inl ⟨(marker, n), hmarked, rfl, rfl⟩) h
  | sizedText width =>
    obtain ⟨⟨n, b'⟩, hn, ht⟩ := Option.bind_eq_some_iff.mp h
    obtain ⟨head, hhead, hb⟩ := hsized hmarked hn
    exact hb ▸ form_of_text (.inr hhead) ht
  | sizedBinary width =>
    obtain ⟨⟨n, b'⟩, hn, ht⟩ := Option.bind_eq_some_iff.mp h
    obtain ⟨head, hhead, hb⟩ := hsized hmarked hn
    obtain ⟨⟨t, rest'⟩, hbytes, hv⟩ := Option.map_eq_some_iff.mp ht
    obtain ⟨rfl, rfl⟩ : .binary t = v ∧ rest' = rest := by simpa using hv
    obtain ⟨rfl, rfl⟩ := takeBytes_eq_some_iff.mp hbytes
    exact ⟨head ++ t, ⟨head, hhead, rfl⟩, by rw [hb, List.append_assoc]⟩
  | sizedArray width =>
    obtain ⟨⟨n, b'⟩, hn, hitems⟩ := Option.bind_eq_some_iff.mp h
    obtain ⟨head, hhead, hb⟩ := hsized hmarked hn
    exact hb ▸ form_of_array hone (hdepth rfl) (.inr hhead) hitems
  | sizedMap width =>
    obtain ⟨⟨n, b'⟩, hn, hentries⟩ := Option.bind_eq_some_iff.mp h
    obtain ⟨head, hhead, hb⟩ := hsized hmarked hn
    exact hb ▸ form_of_map hone (hdepth rfl) (.inr hhead) hentries
  | sizedExtension width =>
    obtain ⟨⟨n, b'⟩, hn, hdata⟩ := Option.bind_eq_some_iff.mp h
    obtain ⟨head, hhead, hb⟩ := hsized hmarked hn
    exact hb ▸ form_of_extension (hdepth rfl) (.inr hhead) hdata

/-- **Exactly the written forms are read.** -/
theorem takeValue_eq_some_iff : ∀ {depth : Nat} {b : Bytes} {v : Value} {rest : Bytes},
    takeValue depth b = some (v, rest) ↔ ∃ p, v.Form depth p ∧ b = p ++ rest := by
  intro depth b v rest
  constructor
  · intro h
    -- Induction on the depth: what is inside is read by a reader of one level less.
    induction depth generalizing b v rest with
    | zero => exact nomatch h
    | succ depth ih =>
      cases b with
      | nil => exact nomatch h
      | cons marker b =>
        obtain ⟨s, hs, htake⟩ := Option.bind_eq_some_iff.mp h
        split_ifs at htake with hnests
        refine form_of_takeShape ih (markedBy_of_shape? hs) (fun hs => ?_) htake
        rw [hs, Bool.true_and, beq_iff_eq] at hnests
        exact Nat.pos_of_ne_zero hnests
  · rintro ⟨p, hp, rfl⟩
    exact takeValue_form hp rest

/-- A value is read just if the bytes start with a form of it. -/
theorem read?_eq_some_iff :
    Value.read? b = some v ↔ ∃ p rest, v.Form maxDepth p ∧ b = p ++ rest := by
  unfold Value.read?
  rw [Option.map_eq_some_iff]
  constructor
  · rintro ⟨⟨v, rest⟩, hread, rfl⟩
    obtain ⟨p, hp, hb⟩ := takeValue_eq_some_iff.mp hread
    exact ⟨p, rest, hp, hb⟩
  · rintro ⟨p, rest, hp, rfl⟩
    exact ⟨(v, rest), takeValue_form hp rest, rfl⟩

end Depot.MessagePack
