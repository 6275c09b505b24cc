import Depot.MessagePack.Reader
import Mathlib.Data.List.Forall2
import Mathlib.Tactic.Linarith
import Mathlib.Tactic.Ring
import Mathlib.Tactic.SplitIfs

/-!
# The written forms of a value

A number or a length may be written in any width that it fits, so that a value has many written
forms. The reader takes each of them off the start of a byte string and gives the value, provided
that nothing in it nests too deep.

Headlines
* **`Value.Form`**: the written forms of a value.
* **`takeValue_form`**: each of them is read as the value, whatever follows it.
* **`takeValue_deep`**: lists that nest as deep as the reader goes are refused.
-/

namespace Depot.MessagePack

variable {depth n limit width : Nat} {short marker : UInt8} {markers : List (UInt8 × Nat)}
  {b rest : Bytes} {s : Shape} {r : Option (Value × Bytes)}

/-! ### Numbers -/

/-- The number that bytes make up after others. -/
def gather (acc : Nat) (b : Bytes) : Nat := b.foldl (fun n d => 256 * n + d.toNat) acc

theorem length_bigEndian (width n : Nat) : (bigEndian width n).length = width := by
  induction width with
  | zero => rfl
  | succ width ih => simp [bigEndian, ih]

theorem gather_bigEndian (width n acc : Nat) :
    gather acc (bigEndian width n) = acc * 256 ^ width + n % 256 ^ width := by
  induction width generalizing acc with
  | zero => simp [gather, bigEndian, Nat.mod_one]
  | succ width ih =>
    have hbyte : ((n >>> (8 * width)).toUInt8).toNat = n / 256 ^ width % 256 := by
      rw [Nat.shiftRight_eq_div_pow, Nat.pow_mul]
      rfl
    show gather (256 * acc + ((n >>> (8 * width)).toUInt8).toNat) (bigEndian width n) = _
    rw [ih, hbyte, Nat.pow_succ, Nat.mod_mul]
    ring

theorem takeBytes_append (b rest : Bytes) : takeBytes b.length (b ++ rest) = some (b, rest) := by
  unfold takeBytes
  simp

/-- A number that fits its width is read back. -/
theorem takeNat_bigEndian (h : n < 256 ^ width) (rest : Bytes) :
    takeNat width (bigEndian width n ++ rest) = some (n, rest) := by
  have hbytes := takeBytes_append (bigEndian width n) rest
  rw [length_bigEndian] at hbytes
  unfold takeNat
  rw [hbytes]
  have hgather := gather_bigEndian width n 0
  rw [Nat.mod_eq_of_lt h, Nat.zero_mul, Nat.zero_add] at hgather
  exact congrArg some (Prod.ext hgather rfl)

/-- A number with a sign is read back from its two's complement. -/
theorem takeInt_bigEndian {k : Int} (hlow : -256 ^ width ≤ 2 * k) (hhigh : 2 * k < 256 ^ width)
    (rest : Bytes) :
    takeInt width (bigEndian width (k % 256 ^ width).toNat ++ rest) = some (k, rest) := by
  have hpos : (0 : Int) < 256 ^ width := by positivity
  have hpow : ((256 ^ width : Nat) : Int) = 256 ^ width := by push_cast; rfl
  have hnonneg := Int.emod_nonneg k hpos.ne'
  have hlt := Int.emod_lt_of_pos k hpos
  have htoNat : (((k % 256 ^ width).toNat : Nat) : Int) = k % 256 ^ width :=
    Int.toNat_of_nonneg hnonneg
  unfold takeInt
  rw [takeNat_bigEndian (by omega)]
  have hpow' : Nat.pow 256 width = 256 ^ width := rfl
  simp only [Option.map_some, hpow', Option.some.injEq, Prod.mk.injEq, and_true]
  rcases lt_or_ge k 0 with hneg | hge
  · have hmod : k % 256 ^ width = k + 256 ^ width := by
      rw [← Int.add_emod_right, Int.emod_eq_of_lt] <;> omega
    rw [if_neg (by omega)]
    omega
  · have hmod : k % 256 ^ width = k := Int.emod_eq_of_lt hge (by omega)
    rw [if_pos (by omega)]
    omega

/-! ### Markers -/

theorem toNat_short (h : short.toNat + n < 256) : (short + n.toUInt8).toNat = short.toNat + n := by
  have hn : n.toUInt8.toNat = n := by
    show n % 256 = n
    omega
  rw [UInt8.toNat_add, hn]
  omega

theorem shape?_nat (h : n < 128) : shape? (0 + n.toUInt8) = some (.value (.unsigned n)) := by
  have hn : ((0 : UInt8) + n.toUInt8).toNat = n := by
    rw [toNat_short] <;> simp
    omega
  unfold shape?
  simp only [hn]
  rw [if_pos h]

theorem shape?_map (h : n < 16) : shape? (0x80 + n.toUInt8) = some (.map n) := by
  have hn : ((0x80 : UInt8) + n.toUInt8).toNat = 0x80 + n := toNat_short (by simp; omega)
  unfold shape?
  simp only [hn]
  rw [if_neg (by omega), if_pos (by omega), Nat.add_sub_cancel_left]

theorem shape?_array (h : n < 16) : shape? (0x90 + n.toUInt8) = some (.array n) := by
  have hn : ((0x90 : UInt8) + n.toUInt8).toNat = 0x90 + n := toNat_short (by simp; omega)
  unfold shape?
  simp only [hn]
  rw [if_neg (by omega), if_neg (by omega), if_pos (by omega), Nat.add_sub_cancel_left]

theorem shape?_text (h : n < 32) : shape? (0xa0 + n.toUInt8) = some (.text n) := by
  have hn : ((0xa0 : UInt8) + n.toUInt8).toNat = 0xa0 + n := toNat_short (by simp; omega)
  unfold shape?
  simp only [hn]
  rw [if_neg (by omega), if_neg (by omega), if_neg (by omega), if_pos (by omega),
    Nat.add_sub_cancel_left]

theorem shape?_negative (h : n < 32) :
    shape? (0xff - n.toUInt8) = some (.value (.signed (Int.negSucc n))) := by
  have hn : ((0xff : UInt8) - n.toUInt8).toNat = 0xff - n := by
    have hn' : n.toUInt8.toNat = n := by
      show n % 256 = n
      omega
    rw [UInt8.toNat_sub, hn']
    show (256 - n + 255) % 256 = _
    omega
  unfold shape?
  simp only [hn]
  rw [if_neg (by omega), if_neg (by omega), if_neg (by omega), if_neg (by omega),
    if_pos (by omega)]
  congr 3
  omega

/-- A reader at any depth takes what does not nest. -/
theorem pos_of_flat (h : s.nests = false) : s.nests = true → 0 < depth := fun hnests =>
  absurd (h.symm.trans hnests) Bool.false_ne_true

/-- A value is taken by what its marker announces. -/
theorem takeValue_cons (h : shape? marker = some s) (hdepth : s.nests = true → 0 < depth)
    (b : Bytes) : takeValue (depth + 1) (marker :: b) = takeShape (takeValue depth) s b := by
  rw [takeValue, h, Option.bind_some, if_neg]
  rw [Bool.and_eq_true, beq_iff_eq]
  exact fun hnests => (hdepth hnests.1).ne' hnests.2

/-! ### Forms -/

/-- The forms of a number or a length that follows its marker: any width that it fits. -/
def Sized (markers : List (UInt8 × Nat)) (n : Nat) (b : Bytes) : Prop :=
  ∃ e ∈ markers, n < 256 ^ e.2 ∧ b = e.1 :: bigEndian e.2 n

/-- The forms of a number or a length that is part of its marker or follows it. -/
def Headed (short : UInt8) (limit : Nat) (markers : List (UInt8 × Nat)) (n : Nat) (b : Bytes) :
    Prop :=
  n < limit ∧ b = [short + n.toUInt8] ∨ Sized markers n b

/-- The forms of the head of an extension: for some lengths there is a marker of their own. -/
def ExtensionHead (n : Nat) (b : Bytes) : Prop :=
  (∃ e ∈ [((0xd4 : UInt8), 1), (0xd5, 2), (0xd6, 4), (0xd7, 8), (0xd8, 16)], n = e.2 ∧ b = [e.1]) ∨
    Sized [(0xc7, 1), (0xc8, 2), (0xc9, 4)] n b

/-- The forms of a number with a sign: a small one that is negative is part of its marker, any
other follows it in two's complement. -/
def SignedForm (k : Int) (b : Bytes) : Prop :=
  (∃ n < 32, k = .negSucc n ∧ b = [0xff - n.toUInt8]) ∨
    ∃ e ∈ [((0xd0 : UInt8), 1), (0xd1, 2), (0xd2, 4), (0xd3, 8)],
      -256 ^ e.2 ≤ 2 * k ∧ 2 * k < 256 ^ e.2 ∧ b = e.1 :: bigEndian e.2 (k % 256 ^ e.2).toNat

/-- The written forms of a value in which lists, maps and extensions nest less than `depth` deep. -/
def Value.Form : Nat → Value → Bytes → Prop
  | 0, _, _ => False
  | _ + 1, .nil, b => b = [0xc0]
  | _ + 1, .bool t, b => b = [if t then 0xc3 else 0xc2]
  | _ + 1, .unsigned n, b => Headed 0 128 [(0xcc, 1), (0xcd, 2), (0xce, 4), (0xcf, 8)] n b
  | _ + 1, .signed k, b => SignedForm k b
  | _ + 1, .float bits, b =>
    bits.length = 4 ∧ b = 0xca :: bits ∨ bits.length = 8 ∧ b = 0xcb :: bits
  | _ + 1, .text t, b =>
    ∃ h, Headed 0xa0 32 [(0xd9, 1), (0xda, 2), (0xdb, 4)] t.length h ∧ b = h ++ t
  | _ + 1, .binary t, b => ∃ h, Sized [(0xc4, 1), (0xc5, 2), (0xc6, 4)] t.length h ∧ b = h ++ t
  | depth + 1, .extension kind data, b =>
    0 < depth ∧ ∃ h, ExtensionHead data.length h ∧ b = h ++ kind :: data
  | depth + 1, .array items, b =>
    0 < depth ∧ ∃ h parts, Headed 0x90 16 [(0xdc, 2), (0xdd, 4)] items.length h ∧
      List.Forall₂ (fun v p => v.Form depth p) items parts ∧ b = h ++ parts.flatten
  | depth + 1, .map entries, b =>
    0 < depth ∧ ∃ h parts, Headed 0x80 16 [(0xde, 2), (0xdf, 4)] entries.length h ∧
      List.Forall₂ (fun e p => ∃ k v, e.1.Form depth k ∧ e.2.Form depth v ∧ p = k ++ v)
        entries parts ∧ b = h ++ parts.flatten

/-! ### Reading a form -/

/-- The markers announce shapes of their widths, which a reader at this depth takes. -/
def Announces (depth : Nat) (markers : List (UInt8 × Nat)) (shape : Nat → Shape) : Prop :=
  ∀ e ∈ markers, shape? e.1 = some (shape e.2) ∧ ((shape e.2).nests = true → 0 < depth)

theorem announces_nil (shape : Nat → Shape) : Announces depth [] shape :=
  fun _ he => absurd he List.not_mem_nil

theorem announces_cons {shape : Nat → Shape} (h : shape? marker = some (shape width))
    (hdepth : (shape width).nests = true → 0 < depth) (hwider : Announces depth markers shape) :
    Announces depth ((marker, width) :: markers) shape :=
  List.forall_mem_cons.mpr ⟨⟨h, hdepth⟩, hwider⟩

theorem announces_flat {shape : Nat → Shape} (h : shape? marker = some (shape width))
    (hflat : (shape width).nests = false) (hwider : Announces depth markers shape) :
    Announces depth ((marker, width) :: markers) shape :=
  announces_cons h (pos_of_flat hflat) hwider

theorem natMarkers :
    Announces depth [(0xcc, 1), (0xcd, 2), (0xce, 4), (0xcf, 8)] .unsigned :=
  announces_flat rfl rfl <| announces_flat rfl rfl <| announces_flat rfl rfl <|
    announces_flat rfl rfl <| announces_nil _

theorem intMarkers : Announces depth [(0xd0, 1), (0xd1, 2), (0xd2, 4), (0xd3, 8)] .signed :=
  announces_flat rfl rfl <| announces_flat rfl rfl <| announces_flat rfl rfl <|
    announces_flat rfl rfl <| announces_nil _

theorem textMarkers : Announces depth [(0xd9, 1), (0xda, 2), (0xdb, 4)] .sizedText :=
  announces_flat rfl rfl <| announces_flat rfl rfl <| announces_flat rfl rfl <| announces_nil _

theorem binaryMarkers : Announces depth [(0xc4, 1), (0xc5, 2), (0xc6, 4)] .sizedBinary :=
  announces_flat rfl rfl <| announces_flat rfl rfl <| announces_flat rfl rfl <| announces_nil _

theorem extensionMarkers (h : 0 < depth) :
    Announces depth [(0xc7, 1), (0xc8, 2), (0xc9, 4)] .sizedExtension :=
  announces_cons rfl (fun _ => h) <| announces_cons rfl (fun _ => h) <|
    announces_cons rfl (fun _ => h) <| announces_nil _

theorem fixedExtensionMarkers (h : 0 < depth) :
    Announces depth [(0xd4, 1), (0xd5, 2), (0xd6, 4), (0xd7, 8), (0xd8, 16)] .extension :=
  announces_cons rfl (fun _ => h) <| announces_cons rfl (fun _ => h) <|
    announces_cons rfl (fun _ => h) <| announces_cons rfl (fun _ => h) <|
    announces_cons rfl (fun _ => h) <| announces_nil _

theorem arrayMarkers (h : 0 < depth) : Announces depth [(0xdc, 2), (0xdd, 4)] .sizedArray :=
  announces_cons rfl (fun _ => h) <| announces_cons rfl (fun _ => h) <| announces_nil _

theorem mapMarkers (h : 0 < depth) : Announces depth [(0xde, 2), (0xdf, 4)] .sizedMap :=
  announces_cons rfl (fun _ => h) <| announces_cons rfl (fun _ => h) <| announces_nil _

/-- A number or length that follows its marker is read. -/
theorem takeValue_sized {shape : Nat → Shape} (h : Sized markers n b)
    (hshape : Announces depth markers shape)
    (hr : ∀ width, n < 256 ^ width →
      takeShape (takeValue depth) (shape width) (bigEndian width n ++ rest) = r) :
    takeValue (depth + 1) (b ++ rest) = r := by
  obtain ⟨e, he, hlt, rfl⟩ := h
  obtain ⟨hmarker, hdepth⟩ := hshape e he
  rw [List.cons_append, takeValue_cons hmarker hdepth, hr e.2 hlt]

/-- A number or length that is part of its marker or follows it is read. -/
theorem takeValue_headed {shape : Nat → Shape} {whole : Shape}
    (h : Headed short limit markers n b)
    (hshort : n < limit → shape? (short + n.toUInt8) = some whole)
    (hdepth : whole.nests = true → 0 < depth) (hshape : Announces depth markers shape)
    (hwhole : takeShape (takeValue depth) whole rest = r)
    (hr : ∀ width, n < 256 ^ width →
      takeShape (takeValue depth) (shape width) (bigEndian width n ++ rest) = r) :
    takeValue (depth + 1) (b ++ rest) = r := by
  rcases h with ⟨hlt, rfl⟩ | h
  · exact (takeValue_cons (hshort hlt) hdepth rest).trans hwhole
  · exact takeValue_sized h hshape hr

theorem takeValue_signed {k : Int} (h : SignedForm k b) (rest : Bytes) :
    takeValue (depth + 1) (b ++ rest) = some (.signed k, rest) := by
  rcases h with ⟨n, hn, rfl, rfl⟩ | ⟨e, he, hlow, hhigh, rfl⟩
  · exact takeValue_cons (shape?_negative hn) (pos_of_flat rfl) rest
  · obtain ⟨hmarker, hdepth⟩ : _ ∧ (_ → 0 < depth) := intMarkers e he
    rw [List.cons_append, takeValue_cons hmarker hdepth, takeShape,
      takeInt_bigEndian hlow hhigh]
    rfl

theorem takeExtension_append (kind : UInt8) (data rest : Bytes) :
    takeExtension data.length (kind :: data ++ rest) = some (.extension kind data, rest) := by
  rw [List.cons_append, takeExtension, takeBytes_append]
  rfl

theorem takeValue_extension {kind : UInt8} {data : Bytes} (hdepth : 0 < depth)
    (h : ExtensionHead data.length b) (rest : Bytes) :
    takeValue (depth + 1) (b ++ (kind :: data ++ rest)) = some (.extension kind data, rest) := by
  rcases h with ⟨e, he, hlength, rfl⟩ | h
  · obtain ⟨hmarker, hnests⟩ := fixedExtensionMarkers hdepth e he
    rw [List.singleton_append, takeValue_cons hmarker hnests, takeShape, ← hlength,
      takeExtension_append]
  · refine takeValue_sized h (extensionMarkers hdepth) fun width hlt => ?_
    rw [takeShape, takeNat_bigEndian hlt]
    exact takeExtension_append kind data rest

theorem takeValue_float (hmarker : shape? marker = some (.float b.length)) (rest : Bytes) :
    takeValue (depth + 1) (marker :: b ++ rest) = some (.float b, rest) := by
  rw [List.cons_append, takeValue_cons hmarker (pos_of_flat rfl), takeShape, takeBytes_append]
  rfl

theorem takeValue_text {t : Bytes}
    (h : Headed 0xa0 32 [(0xd9, 1), (0xda, 2), (0xdb, 4)] t.length b) (rest : Bytes) :
    takeValue (depth + 1) (b ++ (t ++ rest)) = some (.text t, rest) := by
  refine takeValue_headed h shape?_text (pos_of_flat rfl) textMarkers ?_ fun width hlt => ?_
  · simp only [takeShape, takeBytes_append, Option.map_some]
  · simp only [takeShape, takeNat_bigEndian hlt, takeBytes_append, Option.bind_some,
      Option.map_some]

theorem takeValue_binary {t : Bytes} (h : Sized [(0xc4, 1), (0xc5, 2), (0xc6, 4)] t.length b)
    (rest : Bytes) : takeValue (depth + 1) (b ++ (t ++ rest)) = some (.binary t, rest) := by
  refine takeValue_sized h binaryMarkers fun width hlt => ?_
  simp only [takeShape, takeNat_bigEndian hlt, takeBytes_append, Option.bind_some, Option.map_some]

/-- Values one after the other are taken one after the other. -/
theorem takeMany_forms {α : Type} {one : Bytes → Option (α × Bytes)} {items : List α}
    {parts : List Bytes} (h : List.Forall₂ (fun v p => ∀ rest, one (p ++ rest) = some (v, rest))
      items parts) (rest : Bytes) :
    takeMany one items.length (parts.flatten ++ rest) = some (items, rest) := by
  induction h with
  | nil => rfl
  | cons hv hrest ih =>
    simp only [List.flatten_cons, List.append_assoc, List.length_cons, takeMany, hv, ih,
      Option.bind_eq_bind, Option.bind_some]

theorem takeValue_array {items : List Value} {parts : List Bytes} (hdepth : 0 < depth)
    (h : Headed 0x90 16 [(0xdc, 2), (0xdd, 4)] items.length b)
    (hparts : List.Forall₂ (fun v p => ∀ rest, takeValue depth (p ++ rest) = some (v, rest))
      items parts) (rest : Bytes) :
    takeValue (depth + 1) (b ++ (parts.flatten ++ rest)) = some (.array items, rest) := by
  refine takeValue_headed h shape?_array (fun _ => hdepth) (arrayMarkers hdepth) ?_
    fun width hlt => ?_
  · simp only [takeShape, takeMany_forms hparts, Option.map_some]
  · simp only [takeShape, takeNat_bigEndian hlt, takeMany_forms hparts, Option.bind_some,
      Option.map_some]

theorem takePair_append {α : Type} {one : Bytes → Option (α × Bytes)} {k v : α} {p q : Bytes}
    (hk : ∀ rest, one (p ++ rest) = some (k, rest)) (hv : ∀ rest, one (q ++ rest) = some (v, rest))
    (rest : Bytes) : takePair one (p ++ q ++ rest) = some ((k, v), rest) := by
  simp only [takePair, List.append_assoc, hk, hv, Option.bind_eq_bind, Option.bind_some]

theorem takeValue_map {entries : List (Value × Value)} {parts : List Bytes} (hdepth : 0 < depth)
    (h : Headed 0x80 16 [(0xde, 2), (0xdf, 4)] entries.length b)
    (hparts : List.Forall₂ (fun e p => ∀ rest,
      takePair (takeValue depth) (p ++ rest) = some (e, rest)) entries parts) (rest : Bytes) :
    takeValue (depth + 1) (b ++ (parts.flatten ++ rest)) = some (.map entries, rest) := by
  refine takeValue_headed h shape?_map (fun _ => hdepth) (mapMarkers hdepth) ?_
    fun width hlt => ?_
  · simp only [takeShape, takeMany_forms hparts, Option.map_some]
  · simp only [takeShape, takeNat_bigEndian hlt, takeMany_forms hparts, Option.bind_some,
      Option.map_some]

/-- **Each written form of a value is read as the value**, whatever follows it. -/
theorem takeValue_form : ∀ {depth : Nat} {v : Value} {b : Bytes}, v.Form depth b → ∀ rest,
    takeValue depth (b ++ rest) = some (v, rest)
  | 0, _, _, h, _ => h.elim
  | depth + 1, v, b, h, rest => by
    -- Induction on the depth: the members of a value are read by a reader of one level less.
    have ih : ∀ {v : Value} {b : Bytes}, v.Form depth b → ∀ rest,
        takeValue depth (b ++ rest) = some (v, rest) := takeValue_form
    cases v with
    | nil =>
      obtain rfl : b = [0xc0] := h
      exact takeValue_cons (s := .value .nil) rfl (pos_of_flat rfl) rest
    | bool t =>
      obtain rfl : b = [if t then 0xc3 else 0xc2] := h
      have hmarker : shape? (if t then 0xc3 else 0xc2) = some (.value (.bool t)) := by
        cases t <;> rfl
      exact takeValue_cons hmarker (pos_of_flat rfl) rest
    | unsigned n =>
      refine takeValue_headed h shape?_nat (pos_of_flat rfl) natMarkers rfl fun width hlt => ?_
      rw [takeShape, takeNat_bigEndian hlt]
      rfl
    | signed k => exact takeValue_signed h rest
    | float bits =>
      rcases h with ⟨hlength, rfl⟩ | ⟨hlength, rfl⟩
      · exact takeValue_float (by rw [hlength]; rfl) rest
      · exact takeValue_float (by rw [hlength]; rfl) rest
    | text t =>
      obtain ⟨head, hhead, rfl⟩ := h
      rw [List.append_assoc]
      exact takeValue_text hhead rest
    | binary t =>
      obtain ⟨head, hhead, rfl⟩ := h
      rw [List.append_assoc]
      exact takeValue_binary hhead rest
    | extension kind data =>
      obtain ⟨hdepth, head, hhead, rfl⟩ := h
      rw [List.append_assoc]
      exact takeValue_extension hdepth hhead rest
    | array items =>
      obtain ⟨hdepth, head, parts, hhead, hparts, rfl⟩ := h
      rw [List.append_assoc]
      exact takeValue_array hdepth hhead (hparts.imp fun _ _ hp => ih hp) rest
    | map entries =>
      obtain ⟨hdepth, head, parts, hhead, hparts, rfl⟩ := h
      rw [List.append_assoc]
      refine takeValue_map hdepth hhead (hparts.imp fun e p hp => ?_) rest
      obtain ⟨k, v, hk, hv, rfl⟩ := hp
      exact takePair_append (ih hk) (ih hv)

/-- A form is read as its value, whatever follows it. -/
theorem read?_form {v : Value} (h : v.Form maxDepth b) (rest : Bytes) :
    Value.read? (b ++ rest) = some v := by
  unfold Value.read?
  rw [takeValue_form h]
  rfl

/-- Lists of one list that nest as deep as the reader goes are refused. -/
theorem takeValue_deep (h : depth ≤ n) (rest : Bytes) :
    takeValue depth (List.replicate n 0x91 ++ rest) = none := by
  induction depth generalizing n with
  | zero => rfl
  | succ depth ih =>
    obtain ⟨n, rfl⟩ : ∃ k, n = k + 1 := ⟨n - 1, by omega⟩
    rw [List.replicate_succ, List.cons_append]
    rcases Nat.eq_zero_or_pos depth with rfl | hdepth
    · rfl
    · have hmarker : shape? 0x91 = some (.array 1) := rfl
      rw [takeValue_cons hmarker fun _ => hdepth, takeShape]
      simp only [takeMany, ih (Nat.le_of_succ_le_succ h), Option.bind_eq_bind, Option.bind_none,
        Option.map_none]

end Depot.MessagePack
