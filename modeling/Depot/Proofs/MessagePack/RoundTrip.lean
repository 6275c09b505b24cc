import Depot.Proofs.MessagePack.Forms

/-!
# Reading back what has been written

What is written for a value is one of its forms, the shortest one, provided that its numbers and
lengths have a written form and nothing in it nests too deep. So the reader gives the value back.

Headlines
* **`Value.Fits.form`**: what is written is a form of the value.
* **`takeValue_write`**: what is written is read back, whatever follows it.
* **`read?_write`**: so a value that is stored is read.
-/

namespace Depot.MessagePack

variable {n limit depth : Nat} {short : UInt8} {markers : List (UInt8 × Nat)}

/-! ### Numbers and lengths -/

/-- The first width that a number fits is one that it fits. -/
theorem sized_form (h : ∃ e ∈ markers, n < 256 ^ e.2) : Sized markers n (sized n markers) := by
  induction markers with
  | nil =>
    obtain ⟨e, he, -⟩ := h
    exact absurd he List.not_mem_nil
  | cons e wider ih =>
    obtain ⟨marker, width⟩ := e
    have hpow : Nat.pow 256 width = 256 ^ width := rfl
    by_cases hn : n < 256 ^ width
    · refine ⟨(marker, width), List.mem_cons_self, hn, ?_⟩
      rw [sized, hpow, if_pos hn]
    · have hwider : ∃ e ∈ wider, n < 256 ^ e.2 := by
        obtain ⟨e, he, hlt⟩ := h
        rcases List.mem_cons.mp he with rfl | he
        · exact absurd hlt hn
        · exact ⟨e, he, hlt⟩
      obtain ⟨e, he, hlt, heq⟩ := ih hwider
      refine ⟨e, List.mem_cons_of_mem _ he, hlt, ?_⟩
      rw [sized, hpow, if_neg hn]
      exact heq

theorem head_form (h : ∃ e ∈ markers, n < 256 ^ e.2) :
    Headed short limit markers n (head short limit markers n) := by
  unfold head
  split
  · rename_i hshort
    exact .inl ⟨hshort, rfl⟩
  · exact .inr (sized_form h)

theorem writeNat_form (h : n < 256 ^ 8) :
    Headed 0 128 [(0xcc, 1), (0xcd, 2), (0xce, 4), (0xcf, 8)] n (writeNat n) :=
  head_form ⟨(0xcf, 8), by simp, h⟩

/-- The two's complement of a negative number. -/
theorem toNat_negSucc_emod {width : Nat} (h : n < 256 ^ width) :
    (Int.negSucc n % 256 ^ width).toNat = 256 ^ width - 1 - n := by
  have hpow : ((256 ^ width : Nat) : Int) = 256 ^ width := by push_cast; rfl
  have hmod : Int.negSucc n % 256 ^ width = Int.negSucc n + 256 ^ width := by
    rw [← Int.add_emod_right, Int.emod_eq_of_lt] <;> omega
  omega

theorem writeInt_form (h : 2 * n + 2 ≤ 256 ^ 8) :
    SignedForm (Int.negSucc n) (writeInt (Int.negSucc n)) := by
  have hform : ∀ e ∈ [((0xd0 : UInt8), 1), (0xd1, 2), (0xd2, 4), (0xd3, 8)],
      2 * n + 2 ≤ 256 ^ e.2 →
      SignedForm (Int.negSucc n) (e.1 :: bigEndian e.2 (256 ^ e.2 - 1 - n)) := by
    intro e he hle
    have hpow : ((256 ^ e.2 : Nat) : Int) = 256 ^ e.2 := by push_cast; rfl
    refine .inr ⟨e, he, by omega, by omega, ?_⟩
    rw [toNat_negSucc_emod (by omega)]
  unfold writeInt
  dsimp only
  split_ifs with h1 h2 h3 h4
  · exact .inl ⟨n, h1, rfl, rfl⟩
  · exact hform (0xd0, 1) (by simp) (by simp only; omega)
  · exact hform (0xd1, 2) (by simp) (by simp only; omega)
  · exact hform (0xd2, 4) (by simp) (by simp only; omega)
  · exact hform (0xd3, 8) (by simp) h

theorem count_eq {α : Type} {l : List α} (h : l.length < 256 ^ 4) : count l = l.length :=
  Nat.mod_eq_of_lt h

theorem extensionHead_form (h : n < 256 ^ 4) : ExtensionHead n (extensionHead n) := by
  unfold extensionHead
  split
  · exact .inl ⟨(0xd4, 1), by simp, rfl, rfl⟩
  · exact .inl ⟨(0xd5, 2), by simp, rfl, rfl⟩
  · exact .inl ⟨(0xd6, 4), by simp, rfl, rfl⟩
  · exact .inl ⟨(0xd7, 8), by simp, rfl, rfl⟩
  · exact .inl ⟨(0xd8, 16), by simp, rfl, rfl⟩
  · exact .inr (sized_form ⟨(0xc9, 4), by simp, h⟩)

/-! ### Values -/

/-- A value has a written form in which values nest less than `depth` deep. -/
def Value.Fits : Nat → Value → Prop
  | 0, _ => False
  | _ + 1, .nil | _ + 1, .bool _ => True
  | _ + 1, .unsigned n => n < 256 ^ 8
  | _ + 1, .signed n => ∃ k, n = Int.negSucc k ∧ 2 * k + 2 ≤ 256 ^ 8
  | _ + 1, .float bits => bits.length = 4 ∨ bits.length = 8
  | _ + 1, .text b | _ + 1, .binary b => b.length < 256 ^ 4
  | depth + 1, .extension _ data => 0 < depth ∧ data.length < 256 ^ 4
  | depth + 1, .array items => 0 < depth ∧ items.length < 256 ^ 4 ∧ ∀ v ∈ items, v.Fits depth
  | depth + 1, .map entries =>
    0 < depth ∧ entries.length < 256 ^ 4 ∧ ∀ e ∈ entries, e.1.Fits depth ∧ e.2.Fits depth

theorem writeItems_eq (items : List Value) :
    writeItems items = (items.map Value.write).flatten := by
  induction items with
  | nil => rfl
  | cons v items ih => rw [writeItems, ih, List.map_cons, List.flatten_cons]

theorem writeEntries_eq (entries : List (Value × Value)) :
    writeEntries entries = (entries.map fun e => e.1.write ++ e.2.write).flatten := by
  induction entries with
  | nil => rfl
  | cons e entries ih => rw [writeEntries, ih, List.map_cons, List.flatten_cons]

/-- **What is written is a form of the value.** -/
theorem Value.Fits.form : ∀ {depth : Nat} {v : Value}, v.Fits depth → v.Form depth v.write
  | 0, _, h => h.elim
  | depth + 1, v, h => by
    -- Induction on the depth, as the forms of a value are given.
    have ih : ∀ {v : Value}, v.Fits depth → v.Form depth v.write := Value.Fits.form
    cases v with
    | nil => rfl
    | bool b => rfl
    | unsigned n => exact writeNat_form h
    | signed n =>
      obtain ⟨k, rfl, hk⟩ := h
      exact writeInt_form hk
    | float bits =>
      rcases h with h | h
      · exact .inl ⟨h, by rw [Value.write, if_pos h]⟩
      · exact .inr ⟨h, by rw [Value.write, if_neg (by omega)]⟩
    | text b =>
      refine ⟨_, head_form ⟨(0xdb, 4), by simp, h⟩, ?_⟩
      rw [Value.write, writeText, count_eq h]
    | binary b =>
      refine ⟨_, sized_form ⟨(0xc6, 4), by simp, h⟩, ?_⟩
      rw [Value.write, count_eq h]
    | extension kind data =>
      obtain ⟨hdepth, hlength⟩ := h
      refine ⟨hdepth, _, extensionHead_form hlength, ?_⟩
      rw [Value.write, count_eq hlength]
    | array items =>
      obtain ⟨hdepth, hlength, hitems⟩ := h
      refine ⟨hdepth, _, items.map Value.write, head_form ⟨(0xdd, 4), by simp, hlength⟩, ?_, ?_⟩
      · exact List.forall₂_map_right_iff.mpr (List.forall₂_same.mpr fun v hv => ih (hitems v hv))
      · rw [Value.write, arrayHead, count_eq hlength, writeItems_eq]
    | map entries =>
      obtain ⟨hdepth, hlength, hentries⟩ := h
      refine ⟨hdepth, _, entries.map fun e => e.1.write ++ e.2.write,
        head_form ⟨(0xdf, 4), by simp, hlength⟩, ?_, ?_⟩
      · refine List.forall₂_map_right_iff.mpr (List.forall₂_same.mpr fun e he => ?_)
        obtain ⟨hkey, hvalue⟩ := hentries e he
        exact ⟨_, _, ih hkey, ih hvalue, rfl⟩
      · rw [Value.write, mapHead, count_eq hlength, writeEntries_eq]

/-- **What is written is read back**, whatever follows it. -/
theorem takeValue_write {v : Value} (h : v.Fits depth) (rest : Bytes) :
    takeValue depth (v.write ++ rest) = some (v, rest) :=
  takeValue_form h.form rest

/-- A value is read off the start of its written form. -/
theorem read?_write {v : Value} (h : v.Fits maxDepth) (rest : Bytes) :
    Value.read? (v.write ++ rest) = some v :=
  read?_form h.form rest

end Depot.MessagePack
