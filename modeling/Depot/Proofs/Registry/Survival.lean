import Depot.Proofs.Registry.Record

/-!
# Records survive storage

A record is read back from its stored form and from every written form of every map that carries it.
What can get in the way is the format: the writer has 32 bits for a length, so that a text of four
gibibytes loses it, and the reader goes less than 1024 levels deep, also in what it skips.

Headlines
* **`ReadFromMaps`**: a record is read from every written form of every map that carries it.
* **`User.decode?_of_deep`**, **`User.decode?_encode_of_long`**: a map that nests too deep is
  refused, and a name that is too long is lost.
* **`records_survive_storage`**: everything else is read back.
-/

namespace Depot.Registry

open MessagePack

/-- A record is read from every written form of every map that carries its fields, in any order,
among any others and whatever follows the map, provided that less than `maxDepth` levels nest. -/
def ReadFromMaps {α : Type} (decode? : Bytes → Option α)
    (Fields : α → List (String × Option Value) → Prop) (a : α) : Prop :=
  ∀ fields entries b rest, Fields a fields → Carries fields entries →
    (Value.map entries).Form maxDepth b → decode? (b ++ rest) = some a

theorem Object.readFromMaps {o : Object} (hsize : Text.fitsInt64 o.size = true) :
    ReadFromMaps Object.decode? Object.Fields o := by
  intro fields entries b rest hfields hcarries hform
  unfold Object.decode?
  rw [read?_form hform]
  exact Object.ofValue?_of_carries hfields hsize hcarries

theorem Project.readFromMaps (p : Project) : ReadFromMaps Project.decode? Project.Fields p := by
  intro fields entries b rest hfields hcarries hform
  unfold Project.decode?
  rw [read?_form hform]
  exact Project.ofValue?_of_carries hfields hcarries

theorem User.readFromMaps (u : User) : ReadFromMaps User.decode? User.Fields u := by
  intro fields entries b rest hfields hcarries hform
  unfold User.decode?
  rw [read?_form hform]
  exact User.ofValue?_of_carries hfields hcarries

/-! ### What the format loses -/

/-- A list in a list and so on, as many as are given. -/
def nested : Nat → Value
  | 0 => .nil
  | n + 1 => .array [nested n]

/-- The written form of nested lists. -/
def nestedForm (n : Nat) : Bytes := List.replicate n 0x91 ++ [0xc0]

theorem nested_form (n : Nat) : (nested n).Form (n + 1) (nestedForm n) := by
  induction n with
  | zero => rfl
  | succ n ih =>
    refine ⟨Nat.succ_pos n, [0x91], [nestedForm n], .inl ⟨by simp, rfl⟩, ?_, ?_⟩
    · exact .cons ih .nil
    · simp [nestedForm, List.replicate_succ]

/-- A map with a user's name and with nested lists under another key. -/
def deepUser (n : Nat) : List (Value × Value) :=
  [(textValue "name", textValue "u"), (textValue "x", nested n)]

/-- The written form of that map. -/
def deepUserForm (n : Nat) : Bytes :=
  0x82 :: ((textValue "name").write ++ (textValue "u").write ++
    ((textValue "x").write ++ nestedForm n))

theorem deepUser_carries (n : Nat) : Carries [("name", some (textValue "u"))] (deepUser n) := by
  refine ⟨[(textValue "name", textValue "u")], [(textValue "x", nested n)], .refl _, ?_, ?_⟩
  · exact .present (spells_textValue "name") .nil
  · intro e he
    obtain rfl := List.mem_singleton.mp he
    exact ⟨Bytes.utf8 "x", .inl rfl, by decide⟩

theorem deepUser_form (n : Nat) : (Value.map (deepUser n)).Form (n + 2) (deepUserForm n) := by
  have htext : ∀ s, Writable s → (textValue s).Form (n + 1) (textValue s).write := fun s hs =>
    (text_fits hs).form
  refine ⟨Nat.succ_pos n, [0x82], [_, _], .inl ⟨by simp [deepUser], rfl⟩,
    .cons ⟨_, _, htext "name" (by decide), htext "u" (by decide), rfl⟩
      (.cons ⟨_, _, htext "x" (by decide), nested_form n, rfl⟩ .nil), ?_⟩
  simp [deepUserForm]

/-- **A map that nests too deep is refused**, although what does is under another key. -/
theorem User.decode?_of_deep {n : Nat} (h : 1023 ≤ n) : User.decode? (deepUserForm n) = none := by
  have htext : ∀ s, Writable s → ∀ rest, takeValue 1023 ((textValue s).write ++ rest) =
      some (textValue s, rest) := fun s hs rest => takeValue_write (text_fits hs) rest
  have hdeep : takeValue 1023 (nestedForm n) = none := takeValue_deep h _
  have hmarker : shape? 0x82 = some (.map 2) := rfl
  have hmap : takeValue maxDepth (deepUserForm n) = none := by
    have hlevels : 0 < 1023 := by decide
    refine (takeValue_cons hmarker (fun _ => hlevels) _).trans ?_
    simp only [takeShape, takeMany, takePair, List.append_assoc, htext "name" (by decide),
      htext "u" (by decide), htext "x" (by decide), hdeep, Option.bind_eq_bind, Option.bind_some,
      Option.bind_none, Option.map_none]
  unfold User.decode? Value.read?
  rw [hmap]
  rfl

/-- **A name of four gibibytes is lost**: its length is written as zero. -/
theorem User.decode?_encode_of_long {name : String} (h : (Bytes.utf8 name).length = 2 ^ 32) :
    User.decode? (User.encode ⟨name⟩) = some ⟨""⟩ := by
  have hcount : count (Bytes.utf8 name) = 0 := by
    unfold count
    rw [h]
    rfl
  have hname : (textValue name).write = (textValue "").write ++ Bytes.utf8 name := by
    rw [write_textValue, write_textValue, writeText, hcount]
    rfl
  -- What is written for the name is the empty name, and then the bytes of the name as they are.
  have hencode : User.encode ⟨name⟩ = User.encode ⟨""⟩ ++ Bytes.utf8 name := by
    have hrecord : ∀ s : String, User.encode ⟨s⟩ =
        mapHead 1 ++ ((textValue "name").write ++ (textValue s).write) := by
      intro s
      unfold User.encode User.toValue recordValue
      rw [Value.write]
      simp [writeEntries, count]
    rw [hrecord, hrecord, hname]
    simp only [List.append_assoc]
  rw [hencode]
  exact User.decode?_encode_append (u := ⟨""⟩) (by decide) _

/-- A text of so many letters. -/
def letters (n : Nat) : String := String.ofList (List.replicate n 'a')

theorem length_utf8_letters (n : Nat) : (Bytes.utf8 (letters n)).length = n := by
  show (letters n).toByteArray.data.toList.length = n
  have hbytes : (List.replicate n 'a').utf8Encode = (List.replicate n (97 : UInt8)).toByteArray := by
    unfold List.utf8Encode
    congr 1
    induction n with
    | zero => rfl
    | succ n ih =>
      rw [List.replicate_succ, List.flatMap_cons, ih]
      rfl
  unfold letters
  rw [String.toByteArray_ofList, hbytes]
  simp

/-- Not every record is read from every map that carries it, and not every record is read back: a
map may nest too deep for the reader, and a name may be too long for the writer. -/
theorem not_every_record_survives :
    (Carries [("name", some (textValue "u"))] (deepUser 1100) ∧
      User.Fields ⟨"u"⟩ [("name", some (textValue "u"))] ∧
      (Value.map (deepUser 1100)).Form 1102 (deepUserForm 1100) ∧
      User.decode? (deepUserForm 1100) ≠ some ⟨"u"⟩) ∧
    User.decode? (User.encode ⟨letters (2 ^ 32)⟩) ≠ some ⟨letters (2 ^ 32)⟩ := by
  refine ⟨⟨deepUser_carries 1100, ⟨_, rfl, spells_textValue "u"⟩, deepUser_form 1100, ?_⟩, ?_⟩
  · rw [User.decode?_of_deep (by decide)]
    exact nofun
  · rw [User.decode?_encode_of_long (length_utf8_letters _)]
    intro h
    have hname : "" = letters (2 ^ 32) := User.mk.inj (Option.some.inj h)
    have hlength := length_utf8_letters (2 ^ 32)
    rw [← hname] at hlength
    exact absurd hlength (by decide)

/-! ### What survives -/

/-- **Records survive storage.** What is written for an object, a project or a user is read back,
whatever follows it, if each length in it fits 32 bits; and so is every map that carries one of them,
in any of the forms that maps and numbers and texts can be written in, if it nests less deep than
the reader goes. -/
theorem records_survive_storage :
    (∀ o : Object, o.Writable → ∀ rest, Object.decode? (o.encode ++ rest) = some o) ∧
    (∀ p : Project, p.Writable → ∀ rest, Project.decode? (p.encode ++ rest) = some p) ∧
    (∀ u : User, Writable u.name → ∀ rest, User.decode? (u.encode ++ rest) = some u) ∧
    (∀ o : Object, Text.fitsInt64 o.size = true → ReadFromMaps Object.decode? Object.Fields o) ∧
    (∀ p : Project, ReadFromMaps Project.decode? Project.Fields p) ∧
    ∀ u : User, ReadFromMaps User.decode? User.Fields u :=
  ⟨fun _ h rest => Object.decode?_encode_append h rest,
    fun _ h rest => Project.decode?_encode_append h rest,
    fun _ h rest => User.decode?_encode_append h rest,
    fun _ h => Object.readFromMaps h, Project.readFromMaps, User.readFromMaps⟩

/-- An object's map with a list and an extension under another key, the size before the name, and
no list of projects. -/
def scrambled : List (Value × Value) :=
  [(textValue "x", .array [.nil, .extension 1 [7]]), (textValue "size", .unsigned 5),
    (textValue "oid", .binary [97, 98])]

/-- A form of it in which the size takes two bytes. -/
def scrambledForm : Bytes :=
  [0x83, 0xa1, 120, 0x92, 0xc0, 0xd4, 1, 7, 0xa4, 115, 105, 122, 101, 0xcd, 0, 5, 0xa3, 111, 105,
    100, 0xc4, 2, 97, 98]

/-- The scrambled map is read, and what is written for a user. -/
theorem scrambled_survives :
    Object.decode? (scrambledForm ++ [0xff]) = some ⟨"ab", 5, [], false⟩ ∧
      User.decode? (User.encode ⟨"u"⟩ ++ [0xff]) = some ⟨"u"⟩ := by
  obtain ⟨-, -, huser, hobject, -, -⟩ := records_survive_storage
  refine ⟨hobject ⟨"ab", 5, [], false⟩ (by decide) [("oid", some (.binary [97, 98])),
    ("size", some (.unsigned 5)), ("project_names", none), ("existing", none)] scrambled _ _
    ⟨_, _, none, none, rfl, .inr rfl, .inr ⟨5, rfl, rfl⟩, rfl, rfl⟩ ?_ ?_,
    huser ⟨"u"⟩ (by decide) [0xff]⟩
  · refine ⟨[(textValue "oid", .binary [97, 98]), (textValue "size", .unsigned 5)],
      [(textValue "x", .array [.nil, .extension 1 [7]])], (List.reverse_perm _).symm, ?_, ?_⟩
    · exact .present (spells_textValue "oid") (.present (spells_textValue "size")
        (.absent (.absent .nil)))
    · intro e he
      obtain rfl := List.mem_singleton.mp he
      exact ⟨Bytes.utf8 "x", .inl rfl, by decide⟩
  · have htext : ∀ s, Writable s → (textValue s).Form 1023 (textValue s).write := fun s hs =>
      (text_fits hs).form
    have hextension : (Value.extension 1 [7]).Form 1022 [0xd4, 1, 7] :=
      ⟨by decide, [0xd4], .inl ⟨(0xd4, 1), by simp, rfl, rfl⟩, rfl⟩
    have hlist : (Value.array [.nil, .extension 1 [7]]).Form 1023 [0x92, 0xc0, 0xd4, 1, 7] :=
      ⟨by decide, [0x92], [[0xc0], [0xd4, 1, 7]], .inl ⟨by simp, rfl⟩,
        .cons rfl (.cons hextension .nil), rfl⟩
    have hsize : (Value.unsigned 5).Form 1023 [0xcd, 0, 5] :=
      .inr ⟨(0xcd, 2), by simp, by decide, rfl⟩
    have hoid : (Value.binary [97, 98]).Form 1023 [0xc4, 2, 97, 98] :=
      ⟨[0xc4, 2], ⟨(0xc4, 1), by simp, by decide, rfl⟩, rfl⟩
    exact ⟨by decide, [0x83], [_, _, _], .inl ⟨by simp [scrambled], rfl⟩,
      .cons ⟨_, _, htext "x" (by decide), hlist, rfl⟩
        (.cons ⟨_, _, htext "size" (by decide), hsize, rfl⟩
          (.cons ⟨_, _, htext "oid" (by decide), hoid, rfl⟩ .nil)), by decide +kernel⟩

end Depot.Registry
