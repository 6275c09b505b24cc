import Depot.Proofs.MessagePack.RoundTrip
import Depot.Proofs.Registry.Fields

/-!
# Reading stored records

Stored records are read back as they were stored, provided that no text and no list in them is too
long for its head. That holds of every record that is stored in less than four gibibytes.

Headlines
* **`Object.Writable`**, **`Project.Writable`**, **`Writable`**: the records and texts that can be
  written.
* **`Object.decode?_encode_append`**, **`Project.decode?_encode_append`**,
  **`User.decode?_encode_append`**: the stored form of a record is read back as the record, whatever
  follows it.
* **`Object.decode?_encode`**, **`Project.decode?_encode`**: records in less than four gibibytes.
-/

namespace Depot

namespace MessagePack

/-- A key and its value are written whole in a map. -/
theorem length_write_le_writeEntries {e : Value × Value} {entries : List (Value × Value)}
    (h : e ∈ entries) :
    e.1.write.length + e.2.write.length ≤ (writeEntries entries).length := by
  induction entries with
  | nil => exact absurd h List.not_mem_nil
  | cons e' entries ih =>
    obtain ⟨k, v⟩ := e'
    simp only [writeEntries, List.length_append]
    rcases List.mem_cons.mp h with rfl | h
    · show k.write.length + v.write.length ≤ _
      omega
    · have := ih h
      omega

/-- A member is written whole in a list. -/
theorem length_write_le_writeItems {v : Value} {items : List Value} (h : v ∈ items) :
    v.write.length ≤ (writeItems items).length := by
  induction items with
  | nil => exact absurd h List.not_mem_nil
  | cons u items ih =>
    simp only [writeItems, List.length_append]
    rcases List.mem_cons.mp h with rfl | h
    · omega
    · have := ih h
      omega

theorem length_le_writeText (b : Bytes) : b.length ≤ (writeText b).length := by
  unfold writeText
  rw [List.length_append]
  omega

theorem length_writeText_pos (b : Bytes) : 0 < (writeText b).length := by
  by_cases hb : b.length = 0
  · have hnil : b = [] := List.length_eq_zero_iff.mp hb
    rw [hnil]
    exact Nat.zero_lt_one
  · have := length_le_writeText b
    omega

end MessagePack

namespace Registry

open MessagePack

theorem write_textValue (s : String) : (textValue s).write = writeText (Bytes.utf8 s) := by
  unfold textValue
  rw [Value.write]

/-! ### What can be written -/

/-- The length of a text fits the 32 bits that there are for it. -/
def Writable (s : String) : Prop := (Bytes.utf8 s).length < 2 ^ 32

instance (s : String) : Decidable (Writable s) := Nat.decLt _ _

/-- A list has a length that fits 32 bits, and so does each of its texts. -/
structure TextsWritable (texts : List String) : Prop where
  count : texts.length < 2 ^ 32
  texts : ∀ s ∈ texts, Writable s

/-- Everything in an object fits the bits that there are for it. -/
structure Object.Writable (o : Object) : Prop where
  oid : Registry.Writable o.oid
  size : Text.fitsInt64 o.size = true
  projects : TextsWritable o.projects

/-- Everything in a project fits the bits that there are for it. -/
structure Project.Writable (p : Project) : Prop where
  name : Registry.Writable p.name
  oids : TextsWritable p.oids

theorem text_fits {s : String} {depth : Nat} (h : Writable s) : (textValue s).Fits (depth + 1) := h

theorem texts_fit {texts : List String} {depth : Nat} (h : TextsWritable texts) :
    (Value.array (texts.map textValue)).Fits (depth + 2) := by
  refine ⟨Nat.succ_pos depth, ?_, ?_⟩
  · rw [List.length_map]
    exact h.count
  · intro v hv
    obtain ⟨s, hs, rfl⟩ := List.mem_map.mp hv
    exact text_fits (h.texts s hs)

theorem int_fits {n : Int} {depth : Nat} (h : Text.fitsInt64 n = true) :
    (intValue n).Fits (depth + 1) := by
  unfold Text.fitsInt64 at h
  cases n with
  | ofNat k =>
    show k < 256 ^ 8
    simp at h
    omega
  | negSucc k =>
    refine ⟨k, rfl, ?_⟩
    simp at h
    omega

/-- A record of a few named values has a written form if its values have one. -/
theorem record_fits {fields : List (String × Value)} (hfew : fields.length ≤ 4)
    (h : ∀ f ∈ fields, Writable f.1 ∧ f.2.Fits (1022 + 1)) :
    (recordValue fields).Fits maxDepth := by
  refine ⟨Nat.succ_pos 1022, ?_, ?_⟩
  · rw [List.length_map]
    omega
  · intro e he
    obtain ⟨f, hf, rfl⟩ := List.mem_map.mp he
    exact ⟨text_fits (h f hf).1, (h f hf).2⟩

/-! ### What is written carries the record -/

theorem spells_textValue (s : String) : Spells (textValue s) s := .inl rfl

theorem spellsTexts_map (texts : List String) :
    SpellsTexts (.array (texts.map textValue)) texts :=
  ⟨_, rfl, List.forall₂_map_left_iff.mpr (List.forall₂_same.mpr fun s _ => spells_textValue s)⟩

theorem spellsInt_intValue (n : Int) : SpellsInt (intValue n) n := by
  cases n with
  | ofNat k => exact .inr ⟨k, rfl, rfl⟩
  | negSucc k => exact .inl rfl

/-- The fields of a record that is written are all there. -/
theorem carries_recordValue (fields : List (String × Value)) :
    Carries (fields.map fun f => (f.1, some f.2)) (fields.map fun f => (textValue f.1, f.2)) := by
  refine ⟨_, [], by rw [List.append_nil], ?_, nofun⟩
  induction fields with
  | nil => exact .nil
  | cons f fields ih => exact .present (spells_textValue f.1) ih

theorem Object.fits {o : Object} (h : o.Writable) : o.toValue.Fits maxDepth := by
  refine record_fits (Nat.le_of_ble_eq_true rfl) fun f hf => ?_
  simp only [List.mem_cons, List.not_mem_nil, or_false] at hf
  rcases hf with rfl | rfl | rfl | rfl
  · exact ⟨(by decide : Registry.Writable "oid"), text_fits h.oid⟩
  · exact ⟨(by decide : Registry.Writable "size"), int_fits h.size⟩
  · exact ⟨(by decide : Registry.Writable "project_names"), texts_fit h.projects⟩
  · exact ⟨(by decide : Registry.Writable "existing"), trivial⟩

theorem Project.fits {p : Project} (h : p.Writable) : p.toValue.Fits maxDepth := by
  refine record_fits (Nat.le_of_ble_eq_true rfl) fun f hf => ?_
  simp only [List.mem_cons, List.not_mem_nil, or_false] at hf
  rcases hf with rfl | rfl
  · exact ⟨(by decide : Registry.Writable "name"), text_fits h.name⟩
  · exact ⟨(by decide : Registry.Writable "oids"), texts_fit h.oids⟩

theorem User.fits {u : User} (h : Writable u.name) : u.toValue.Fits maxDepth := by
  refine record_fits (Nat.le_of_ble_eq_true rfl) fun f hf => ?_
  obtain rfl := List.mem_singleton.mp hf
  exact ⟨(by decide : Writable "name"), text_fits h⟩

theorem Object.ofValue?_toValue {o : Object} (h : Text.fitsInt64 o.size = true) :
    Object.ofValue? o.toValue = some o := by
  refine Object.ofValue?_of_carries ?_ h (carries_recordValue _)
  exact ⟨_, _, some _, some _, rfl, spells_textValue _, spellsInt_intValue _, spellsTexts_map _, rfl⟩

theorem Project.ofValue?_toValue (p : Project) : Project.ofValue? p.toValue = some p := by
  refine Project.ofValue?_of_carries ?_ (carries_recordValue _)
  exact ⟨_, some _, rfl, spells_textValue _, spellsTexts_map _⟩

theorem User.ofValue?_toValue (u : User) : User.ofValue? u.toValue = some u :=
  User.ofValue?_of_carries ⟨_, rfl, spells_textValue _⟩ (carries_recordValue _)

/-! ### Reading back -/

/-- **A stored object is read back**, whatever follows it. -/
theorem Object.decode?_encode_append {o : Object} (h : o.Writable) (rest : Bytes) :
    Object.decode? (o.encode ++ rest) = some o := by
  unfold Object.decode? Object.encode
  rw [read?_write (Object.fits h)]
  exact Object.ofValue?_toValue h.size

/-- **A stored project is read back**, whatever follows it. -/
theorem Project.decode?_encode_append {p : Project} (h : p.Writable) (rest : Bytes) :
    Project.decode? (p.encode ++ rest) = some p := by
  unfold Project.decode? Project.encode
  rw [read?_write (Project.fits h)]
  exact Project.ofValue?_toValue p

/-- **A stored user is read back**, whatever follows it. -/
theorem User.decode?_encode_append {u : User} (h : Writable u.name) (rest : Bytes) :
    User.decode? (u.encode ++ rest) = some u := by
  unfold User.decode? User.encode
  rw [read?_write (User.fits h)]
  exact User.ofValue?_toValue u

/-! ### Records in less than four gibibytes -/

/-- A value is written whole in a record. -/
theorem length_write_le_record {f : String × Value} {fields : List (String × Value)}
    (h : f ∈ fields) : f.2.write.length ≤ (recordValue fields).write.length := by
  have hle := length_write_le_writeEntries
    (List.mem_map_of_mem (f := fun f : String × Value => (textValue f.1, f.2)) h)
  unfold recordValue
  rw [Value.write, List.length_append]
  dsimp only at hle
  omega

theorem writable_of_write {s : String} (h : (textValue s).write.length < 256 ^ 4) : Writable s := by
  rw [write_textValue] at h
  have := length_le_writeText (Bytes.utf8 s)
  show _ < 256 ^ 4
  omega

theorem length_le_writeItems_texts (texts : List String) :
    texts.length ≤ (writeItems (texts.map textValue)).length := by
  induction texts with
  | nil => exact Nat.zero_le _
  | cons s texts ih =>
    have hpos := length_writeText_pos (Bytes.utf8 s)
    rw [List.map_cons, writeItems, List.length_append, List.length_cons, write_textValue]
    omega

theorem textsWritable_of_write {texts : List String}
    (h : (Value.array (texts.map textValue)).write.length < 256 ^ 4) : TextsWritable texts := by
  rw [Value.write, List.length_append] at h
  refine ⟨?_, fun s hs => ?_⟩
  · have := length_le_writeItems_texts texts
    show _ < 256 ^ 4
    omega
  · have hle := length_write_le_writeItems (List.mem_map_of_mem (f := textValue) hs)
    exact writable_of_write (by omega)

theorem Object.writable_of_length {o : Object} (hsize : Text.fitsInt64 o.size = true)
    (h : o.encode.length < 256 ^ 4) : o.Writable := by
  have hlength := fun f hf => Nat.lt_of_le_of_lt (length_write_le_record (f := f) hf) h
  exact ⟨writable_of_write (hlength ("oid", textValue o.oid) (by simp)), hsize,
    textsWritable_of_write (hlength ("project_names", _) (by simp))⟩

theorem Project.writable_of_length {p : Project} (h : p.encode.length < 256 ^ 4) :
    p.Writable := by
  have hlength := fun f hf => Nat.lt_of_le_of_lt (length_write_le_record (f := f) hf) h
  exact ⟨writable_of_write (hlength ("name", textValue p.name) (by simp)),
    textsWritable_of_write (hlength ("oids", _) (by simp))⟩

/-- **An object in less than four gibibytes is read back.** -/
theorem Object.decode?_encode {o : Object} (hsize : Text.fitsInt64 o.size = true)
    (h : o.encode.length < 256 ^ 4) : Object.decode? o.encode = some o := by
  have hread := Object.decode?_encode_append (Object.writable_of_length hsize h) []
  rwa [List.append_nil] at hread

/-- **A project in less than four gibibytes is read back.** -/
theorem Project.decode?_encode {p : Project} (h : p.encode.length < 256 ^ 4) :
    Project.decode? p.encode = some p := by
  have hread := Project.decode?_encode_append (Project.writable_of_length h) []
  rwa [List.append_nil] at hread

end Registry

end Depot
