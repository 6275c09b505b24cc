import Depot.Proofs.MessagePack.Exact
import Depot.Proofs.Registry.Record

/-!
# What has been read can be written

A length is read from at most 32 bits, and a size from at most 64 bits with a sign, so that a record
that has been read can be written again.

Headlines
* **`Object.writable_of_decode?`**, **`Project.writable_of_decode?`**: a record that has been read
  can be written.
-/

namespace Depot

namespace MessagePack

variable {depth n : Nat} {b : Bytes} {markers : List (UInt8 × Nat)}

theorem Sized.lt (h : Sized markers n b) (hmarkers : ∀ e ∈ markers, e.2 ≤ 4) : n < 256 ^ 4 := by
  obtain ⟨e, he, hlt, -⟩ := h
  exact Nat.lt_of_lt_of_le hlt (Nat.pow_le_pow_right (by decide) (hmarkers e he))

theorem Headed.lt {short : UInt8} {limit : Nat} (h : Headed short limit markers n b)
    (hlimit : limit ≤ 256 ^ 4) (hmarkers : ∀ e ∈ markers, e.2 ≤ 4) : n < 256 ^ 4 := by
  rcases h with ⟨hlt, -⟩ | h
  · exact Nat.lt_of_lt_of_le hlt hlimit
  · exact h.lt hmarkers

/-- A value has a written form. -/
def Value.Written (v : Value) : Prop := ∃ depth b, v.Form depth b

theorem Value.Written.text {t : Bytes} (h : (Value.text t).Written) : t.length < 256 ^ 4 := by
  obtain ⟨depth, b, h⟩ := h
  cases depth with
  | zero => exact h.elim
  | succ depth =>
    obtain ⟨head, hhead, -⟩ := h
    exact hhead.lt (by decide) (by decide)

theorem Value.Written.binary {t : Bytes} (h : (Value.binary t).Written) : t.length < 256 ^ 4 := by
  obtain ⟨depth, b, h⟩ := h
  cases depth with
  | zero => exact h.elim
  | succ depth =>
    obtain ⟨head, hhead, -⟩ := h
    exact hhead.lt (by decide)

theorem Value.Written.array {items : List Value} (h : (Value.array items).Written) :
    items.length < 256 ^ 4 ∧ ∀ v ∈ items, v.Written := by
  obtain ⟨depth, b, h⟩ := h
  cases depth with
  | zero => exact h.elim
  | succ depth =>
    obtain ⟨-, head, parts, hhead, hparts, -⟩ := h
    refine ⟨hhead.lt (by decide) (by decide), fun v hv => ?_⟩
    obtain ⟨i, hi, rfl⟩ := List.mem_iff_getElem.mp hv
    have hlength := hparts.length_eq
    exact ⟨depth, _, hparts.get hi (hlength ▸ hi)⟩

theorem Value.Written.map {entries : List (Value × Value)} (h : (Value.map entries).Written) :
    ∀ e ∈ entries, e.2.Written := by
  obtain ⟨depth, b, h⟩ := h
  cases depth with
  | zero => exact h.elim
  | succ depth =>
    obtain ⟨-, head, parts, -, hparts, -⟩ := h
    intro e he
    obtain ⟨i, hi, rfl⟩ := List.mem_iff_getElem.mp he
    have hlength := hparts.length_eq
    obtain ⟨k, v, -, hv, -⟩ := hparts.get hi (hlength ▸ hi)
    exact ⟨depth, v, hv⟩

theorem written_of_read? {v : Value} (h : Value.read? b = some v) : v.Written := by
  obtain ⟨p, rest, hp, -⟩ := read?_eq_some_iff.mp h
  exact ⟨maxDepth, p, hp⟩

end MessagePack

namespace Registry

open MessagePack

variable {names : List String} {found found' : List (Option Value)} {v : Value} {s : String}

theorem writable_of_textOf? (hv : v.Written) (h : textOf? v = some s) : Writable s := by
  cases v with
  | text b =>
    obtain rfl := Bytes.ofUtf8?_eq_some_iff.mp h
    exact hv.text
  | binary b =>
    obtain rfl := Bytes.ofUtf8?_eq_some_iff.mp h
    exact hv.binary
  | _ => simp [textOf?] at h

/-- Texts that are read one after the other are those of the members. -/
theorem forall₂_of_mapM {items : List Value} {texts : List String}
    (h : items.mapM textOf? = some texts) :
    List.Forall₂ (fun u s => textOf? u = some s) items texts := by
  induction items generalizing texts with
  | nil =>
    obtain rfl := Option.some.inj h
    exact .nil
  | cons u items ih =>
    simp only [List.mapM_cons, Option.bind_eq_bind, Option.pure_def, Option.bind_eq_some_iff,
      Option.some.injEq] at h
    obtain ⟨s, hs, texts, htexts, rfl⟩ := h
    exact .cons hs (ih htexts)

theorem textsWritable_of_textsOf? {texts : List String} (hv : v.Written)
    (h : textsOf? v = some texts) : TextsWritable texts := by
  cases v with
  | array items =>
    obtain ⟨hcount, hitems⟩ := hv.array
    have hread := forall₂_of_mapM h
    refine ⟨hread.length_eq ▸ hcount, fun s hs => ?_⟩
    obtain ⟨i, hi, rfl⟩ := List.mem_iff_getElem.mp hs
    have hi' : i < items.length := hread.length_eq ▸ hi
    exact writable_of_textOf? (hitems _ (List.getElem_mem hi')) (hread.get hi' hi)
  | _ => simp [textsOf?] at h

theorem fits_of_intOf? {n : Int} (h : intOf? v = some n) : Text.fitsInt64 n = true := by
  cases v with
  | unsigned k =>
    simp only [intOf?] at h
    split_ifs at h with hfits
    obtain rfl := Option.some.inj h
    exact hfits
  | signed k =>
    simp only [intOf?] at h
    split_ifs at h with hfits
    obtain rfl := Option.some.inj h
    exact hfits
  | _ => simp [intOf?] at h

/-- What is found for a field was there or comes from an entry. -/
theorem mem_collect {entries : List (Value × Value)} (h : collect names found entries = some found')
    (hv : some v ∈ found') : some v ∈ found ∨ ∃ e ∈ entries, e.2 = v := by
  induction entries generalizing found with
  | nil =>
    obtain rfl := Option.some.inj h
    exact .inl hv
  | cons e entries ih =>
    rw [collect_cons] at h
    obtain ⟨middle, hplace, hrest⟩ := Option.bind_eq_some_iff.mp h
    rcases ih hrest with hmem | ⟨e', he', hv⟩
    · rcases place_eq_some_iff.mp hplace with ⟨-, rfl⟩ | ⟨i, -, -, rfl⟩
      · exact .inl hmem
      · rcases List.mem_or_eq_of_mem_set hmem with hmem | heq
        · exact .inl hmem
        · exact .inr ⟨e, List.mem_cons_self, (Option.some.inj heq).symm⟩
    · exact .inr ⟨e', List.mem_cons_of_mem e he', hv⟩

/-- What is found in a value that has a written form has one. -/
theorem written_of_fieldsOf? {u : Value} (hu : u.Written) (h : fieldsOf? names u = some found)
    (hv : some v ∈ found) : v.Written := by
  cases u with
  | map entries =>
    rcases mem_collect h hv with hmem | ⟨e, he, rfl⟩
    · simp at hmem
    · exact hu.map e he
  | array items =>
    simp only [fieldsOf?] at h
    split_ifs at h
    obtain rfl := Option.some.inj h
    rcases List.mem_append.mp hv with hmem | hmem
    · obtain ⟨w, hw, hwv⟩ := List.mem_map.mp hmem
      obtain rfl := Option.some.inj hwv
      exact hu.array.2 w hw
    · exact nomatch List.eq_of_mem_replicate hmem
  | _ => simp [fieldsOf?] at h

/-- A list that may be absent can be written. -/
theorem textsWritable_of_optional {field : Option Value} {texts : List String}
    (hfield : ∀ v, field = some v → v.Written) (h : optional [] textsOf? field = some texts) :
    TextsWritable texts := by
  cases field with
  | none =>
    obtain rfl := Option.some.inj h
    exact ⟨by decide, nofun⟩
  | some v => exact textsWritable_of_textsOf? (hfield v rfl) h

/-- **An object that has been read can be written.** -/
theorem Object.writable_of_decode? {b : Bytes} {o : Object} (h : Object.decode? b = some o) :
    o.Writable := by
  obtain ⟨u, hu, hread⟩ := Option.bind_eq_some_iff.mp h
  have hwritten := written_of_read? hu
  unfold Object.ofValue? at hread
  split at hread
  · rename_i oid size projects existing hfields
    have hfound := fun v hv => written_of_fieldsOf? (v := v) hwritten hfields hv
    simp only [Option.bind_eq_bind, Option.bind_eq_some_iff, Option.some.injEq] at hread
    obtain ⟨oid', hoid, size', hsize, projects', hprojects, existing', -, rfl⟩ := hread
    exact ⟨writable_of_textOf? (hfound oid (by simp)) hoid, fits_of_intOf? hsize,
      textsWritable_of_optional (fun v hv => hfound v (by simp [hv])) hprojects⟩
  · exact nomatch hread

/-- **A project that has been read can be written.** -/
theorem Project.writable_of_decode? {b : Bytes} {p : Project} (h : Project.decode? b = some p) :
    p.Writable := by
  obtain ⟨u, hu, hread⟩ := Option.bind_eq_some_iff.mp h
  have hwritten := written_of_read? hu
  unfold Project.ofValue? at hread
  split at hread
  · rename_i name oids hfields
    have hfound := fun v hv => written_of_fieldsOf? (v := v) hwritten hfields hv
    simp only [Option.bind_eq_bind, Option.bind_eq_some_iff, Option.some.injEq] at hread
    obtain ⟨name', hname, oids', hoids, rfl⟩ := hread
    exact ⟨writable_of_textOf? (hfound name (by simp)) hname,
      textsWritable_of_optional (fun v hv => hfound v (by simp [hv])) hoids⟩
  · exact nomatch hread

end Registry

end Depot
