import Depot.Registry.Record
import Mathlib.Data.List.Forall2
import Mathlib.Data.List.Nodup

/-!
# Maps that carry a record

A map carries a record if it has the fields of the record, each under its name, and every other key
of it names no field. The order of a map does not matter to the reader of its fields, and what is
under another key does not either, so that the record is read from every map that carries it.

Headlines
* **`Spells`**: the values that spell a text. `SpellsInt`, `SpellsTexts` and `SpellsBool` say the
  same of numbers, of lists of texts and of truth values.
* **`Carries`**: the entries of a map that carry the fields of a record.
* **`collect_perm`**: entries may come in any order.
* **`fieldsOf?_of_carries`**: the fields are read from every map that carries them.
* **`Object.ofValue?_of_carries`**, **`Project.ofValue?_of_carries`**,
  **`User.ofValue?_of_carries`**: and so are the records.
-/

namespace Depot.Registry

open MessagePack

variable {names : List String} {name : String} {found : List (Option Value)} {key v : Value}
  {entries known unknown : List (Value × Value)} {fields : List (String × Option Value)} {i : Nat}

/-! ### What is spelled -/

/-- A value spells a text, as a text or as a byte string. -/
def Spells (v : Value) (s : String) : Prop :=
  v = Value.text (Bytes.utf8 s) ∨ v = Value.binary (Bytes.utf8 s)

/-- A value spells a number, with or without a sign. -/
def SpellsInt (v : Value) (n : Int) : Prop := v = .signed n ∨ ∃ k : Nat, v = .unsigned k ∧ n = k

/-- A value spells a truth value. -/
def SpellsBool (v : Value) (b : Bool) : Prop := v = .bool b

/-- A value spells a list of texts. -/
def SpellsTexts (v : Value) (texts : List String) : Prop :=
  ∃ items, v = .array items ∧ List.Forall₂ Spells items texts

/-- What is spelled by the value of a field that may be absent, in place of its default. -/
def Optionally {α : Type} (spells : Value → α → Prop) (default : α) : Option Value → α → Prop
  | none, a => a = default
  | some v, a => spells v a

theorem textOf?_of_spells {s : String} (h : Spells v s) : textOf? v = some s := by
  rcases h with rfl | rfl
  · exact Bytes.ofUtf8?_utf8 s
  · exact Bytes.ofUtf8?_utf8 s

theorem intOf?_of_spells {n : Int} (h : SpellsInt v n) (hn : Text.fitsInt64 n = true) :
    intOf? v = some n := by
  rcases h with rfl | ⟨k, rfl, rfl⟩
  · simp only [intOf?, hn, if_true]
  · simp only [intOf?, hn, if_true]

theorem boolOf?_of_spells {b : Bool} (h : SpellsBool v b) : boolOf? v = some b := by
  rw [h]
  rfl

theorem textsOf?_of_spells {texts : List String} (h : SpellsTexts v texts) :
    textsOf? v = some texts := by
  obtain ⟨items, rfl, hitems⟩ := h
  show items.mapM textOf? = some texts
  induction hitems with
  | nil => rfl
  | cons htext hrest ih =>
    rw [List.mapM_cons, textOf?_of_spells htext, ih]
    rfl

theorem optional_of_optionally {α : Type} {spells : Value → α → Prop} {default a : α}
    {read : Value → Option α} {field : Option Value} (h : Optionally spells default field a)
    (hread : ∀ {v}, spells v a → read v = some a) : optional default read field = some a := by
  cases field with
  | none =>
    obtain rfl : a = default := h
    rfl
  | some v => exact hread h

/-! ### What a map carries -/

/-- Entries for named fields in the order of the names, none for a field that is absent. -/
inductive Lists : List (String × Option Value) → List (Value × Value) → Prop
  /-- No field. -/
  | nil : Lists [] []
  /-- A field that is absent. -/
  | absent {name : String} {fields : List (String × Option Value)}
      {entries : List (Value × Value)} (h : Lists fields entries) :
      Lists ((name, none) :: fields) entries
  /-- A field under its name. -/
  | present {name : String} {key v : Value} {fields : List (String × Option Value)}
      {entries : List (Value × Value)} (hkey : Spells key name) (h : Lists fields entries) :
      Lists ((name, some v) :: fields) ((key, v) :: entries)

/-- A key is a text or a byte string that is not the name of a field. -/
def Foreign (names : List String) (key : Value) : Prop :=
  ∃ b, (key = .text b ∨ key = .binary b) ∧ ∀ name ∈ names, b ≠ Bytes.utf8 name

/-- Entries for the fields, each under its name, among others that are for none of them, in any
order. -/
def Carries (fields : List (String × Option Value)) (entries : List (Value × Value)) : Prop :=
  ∃ known unknown, entries.Perm (known ++ unknown) ∧ Lists fields known ∧
    ∀ e ∈ unknown, Foreign (fields.map Prod.fst) e.1

/-! ### Order -/

/-- Puts one value at the position of its field. -/
def place (names : List String) (e : Value × Value) (found : List (Option Value)) :
    Option (List (Option Value)) :=
  collect names found [e]

theorem place_eq_some_iff {e : Value × Value} {found' : List (Option Value)} :
    place names e found = some found' ↔
      fieldKey? names e.1 = some .unknown ∧ found' = found ∨
        ∃ i, fieldKey? names e.1 = some (.known i) ∧ found[i]? = some none ∧
          found' = found.set i (some e.2) := by
  obtain ⟨key, v⟩ := e
  unfold place
  rw [collect]
  cases hkey : fieldKey? names key with
  | none => simp
  | some field =>
    cases field with
    | unknown => simp [collect, eq_comm]
    | known i =>
      simp only [collect]
      split
      · rename_i hget
        simp [hget, eq_comm]
      · rename_i hget
        have hnot : ¬ found[i]? = some none := hget
        simp [hnot]

/-- Values are placed one after the other. -/
theorem collect_cons (e : Value × Value) (rest : List (Value × Value)) :
    collect names found (e :: rest) =
      (place names e found).bind fun found => collect names found rest := by
  obtain ⟨key, v⟩ := e
  unfold place
  rw [collect, collect]
  cases fieldKey? names key with
  | none => rfl
  | some field =>
    cases field with
    | unknown => rfl
    | known i =>
      simp only [collect]
      split
      · rfl
      · rfl

/-- Two values that can be placed one after the other can be placed the other way round. -/
theorem place_swap {e e' : Value × Value} {middle found' : List (Option Value)}
    (h : place names e found = some middle) (h' : place names e' middle = some found') :
    ∃ middle', place names e' found = some middle' ∧ place names e middle' = some found' := by
  rcases place_eq_some_iff.mp h with ⟨hkey, rfl⟩ | ⟨i, hkey, hget, rfl⟩
  · exact ⟨found', h', place_eq_some_iff.mpr (.inl ⟨hkey, rfl⟩)⟩
  · rcases place_eq_some_iff.mp h' with ⟨hkey', rfl⟩ | ⟨j, hkey', hget', rfl⟩
    · exact ⟨found, place_eq_some_iff.mpr (.inl ⟨hkey', rfl⟩), h⟩
    · -- The first value fills its place, so that the second one has a place of its own.
      have hne : i ≠ j := by
        rintro rfl
        rw [List.getElem?_set_self (List.getElem?_eq_some_iff.mp hget).1] at hget'
        exact nomatch hget'
      rw [List.getElem?_set_ne hne] at hget'
      refine ⟨found.set j (some e'.2), place_eq_some_iff.mpr (.inr ⟨j, hkey', hget', rfl⟩),
        place_eq_some_iff.mpr (.inr ⟨i, hkey, ?_, List.set_comm _ _ hne⟩)⟩
      rw [List.getElem?_set_ne hne.symm]
      exact hget

theorem place_comm (e e' : Value × Value) (found : List (Option Value)) :
    (place names e found).bind (place names e') = (place names e' found).bind (place names e) := by
  ext found'
  simp only [Option.bind_eq_some_iff]
  constructor
  · rintro ⟨middle, h, h'⟩
    exact place_swap h h'
  · rintro ⟨middle, h, h'⟩
    exact place_swap h h'

/-- **Entries may come in any order.** -/
theorem collect_perm {entries' : List (Value × Value)} (h : entries.Perm entries')
    (found : List (Option Value)) : collect names found entries = collect names found entries' := by
  induction h generalizing found with
  | nil => rfl
  | cons e _ ih => rw [collect_cons, collect_cons, funext ih]
  | swap e e' rest =>
    have hassoc : ∀ e e' : Value × Value, collect names found (e :: e' :: rest) =
        ((place names e found).bind (place names e')).bind fun found =>
          collect names found rest := by
      intro e e'
      rw [collect_cons, Option.bind_assoc]
      exact congrArg _ (funext fun _ => collect_cons e' rest)
    rw [hassoc, hassoc, place_comm]
  | trans _ _ ih ih' => exact (ih found).trans (ih' found)

/-! ### Reading what is carried -/

theorem utf8_beq (s t : String) : (Bytes.utf8 s == Bytes.utf8 t) = (s == t) := by
  rw [Bool.eq_iff_iff, beq_iff_eq, beq_iff_eq]
  exact ⟨Bytes.utf8_injective, congrArg Bytes.utf8⟩

/-- A key that spells the name of a field means the field. -/
theorem fieldKey?_of_spells {before : List String} (hkey : Spells key name)
    (hfresh : name ∉ before) (after : List String) :
    fieldKey? (before ++ name :: after) key = some (.known before.length) := by
  have hindex : (before ++ name :: after).findIdx? (fun n => Bytes.utf8 n == Bytes.utf8 name) =
      some before.length := by
    simp only [utf8_beq]
    have hnone : before.findIdx? (· == name) = none :=
      List.findIdx?_eq_none_iff.mpr fun x hx => beq_false_of_ne fun he => hfresh (he ▸ hx)
    rw [List.findIdx?_append, hnone, List.findIdx?_cons, if_pos (beq_self_eq_true name)]
    simp
  rcases hkey with rfl | rfl
  · simp only [fieldKey?, hindex]
  · simp only [fieldKey?, hindex]

theorem fieldKey?_of_foreign (h : Foreign names key) : fieldKey? names key = some .unknown := by
  obtain ⟨b, hkey, hb⟩ := h
  have hindex : names.findIdx? (fun n => Bytes.utf8 n == b) = none :=
    List.findIdx?_eq_none_iff.mpr fun n hn => beq_false_of_ne fun he => hb n hn he.symm
  rcases hkey with rfl | rfl
  · simp only [fieldKey?, hindex]
  · simp only [fieldKey?, hindex]

/-- What is under foreign keys is not read. -/
theorem collect_foreign (h : ∀ e ∈ unknown, Foreign names e.1) (found : List (Option Value)) :
    collect names found unknown = some found := by
  induction unknown with
  | nil => rfl
  | cons e unknown ih =>
    have hplace : place names e found = some found :=
      place_eq_some_iff.mpr (.inl ⟨fieldKey?_of_foreign (h e List.mem_cons_self), rfl⟩)
    rw [collect_cons, hplace, Option.bind_some]
    exact ih fun e' he' => h e' (List.mem_cons_of_mem e he')

/-- Fields that come in the order of their names fill their places one after the other, the ones
before them having been filled. -/
theorem collect_lists (h : Lists fields known) (rest : List (Value × Value)) :
    ∀ before : List (String × Option Value), ((before ++ fields).map Prod.fst).Nodup →
      collect ((before ++ fields).map Prod.fst)
          (before.map Prod.snd ++ fields.map fun _ => none) (known ++ rest) =
        collect ((before ++ fields).map Prod.fst) ((before ++ fields).map Prod.snd) rest := by
  induction h with
  | nil =>
    intro before _
    simp
  | absent _ ih =>
    rename_i name fields _ _
    intro before hnames
    have hnext := ih (before ++ [(name, none)]) (by simpa using hnames)
    simpa using hnext
  | present hkey _ ih =>
    rename_i name key v fields known _
    intro before hnames
    have hfresh : name ∉ before.map Prod.fst := by
      rw [List.map_append, List.map_cons] at hnames
      exact fun hin => (List.nodup_append.mp hnames).2.2 name hin name List.mem_cons_self rfl
    have hfield : fieldKey? ((before ++ (name, some v) :: fields).map Prod.fst) key =
        some (.known before.length) := by
      have hk := fieldKey?_of_spells hkey hfresh (fields.map Prod.fst)
      rwa [List.length_map, ← List.map_cons (f := Prod.fst) (a := (name, some v)),
        ← List.map_append] at hk
    have hplace : place ((before ++ (name, some v) :: fields).map Prod.fst) (key, v)
        (before.map Prod.snd ++ ((name, some v) :: fields).map fun _ => none) =
          some ((before ++ [(name, some v)]).map Prod.snd ++ fields.map fun _ => none) := by
      refine place_eq_some_iff.mpr (.inr ⟨before.length, hfield, by simp, ?_⟩)
      simp
    have hnext := ih (before ++ [(name, some v)]) (by simpa using hnames)
    rw [List.cons_append, collect_cons, hplace, Option.bind_some]
    simpa using hnext

/-- **The fields are read from every map that carries them.** -/
theorem fieldsOf?_of_carries (h : Carries fields entries) (hnames : (fields.map Prod.fst).Nodup) :
    fieldsOf? (fields.map Prod.fst) (.map entries) = some (fields.map Prod.snd) := by
  obtain ⟨known, unknown, horder, hknown, hunknown⟩ := h
  have hread := collect_lists hknown unknown [] hnames
  show collect _ _ entries = _
  rw [collect_perm horder, List.map_map]
  exact hread.trans (collect_foreign hunknown _)

/-! ### Records -/

/-- The fields of an object. The last two may be absent. -/
def Object.Fields (o : Object) (fields : List (String × Option Value)) : Prop :=
  ∃ oid size projects existing,
    fields = [("oid", some oid), ("size", some size), ("project_names", projects),
      ("existing", existing)] ∧
    Spells oid o.oid ∧ SpellsInt size o.size ∧ Optionally SpellsTexts [] projects o.projects ∧
    Optionally SpellsBool false existing o.existing

/-- The fields of a project. The list may be absent. -/
def Project.Fields (p : Project) (fields : List (String × Option Value)) : Prop :=
  ∃ name oids, fields = [("name", some name), ("oids", oids)] ∧ Spells name p.name ∧
    Optionally SpellsTexts [] oids p.oids

/-- The field of a user. -/
def User.Fields (u : User) (fields : List (String × Option Value)) : Prop :=
  ∃ name, fields = [("name", some name)] ∧ Spells name u.name

/-- **An object is read from every map that carries it.** -/
theorem Object.ofValue?_of_carries {o : Object} (hfields : o.Fields fields)
    (hsize : Text.fitsInt64 o.size = true) (h : Carries fields entries) :
    Object.ofValue? (.map entries) = some o := by
  obtain ⟨oid, size, projects, existing, rfl, hoid, hint, hprojects, hexisting⟩ := hfields
  have hread := fieldsOf?_of_carries h (by simp)
  have hprojects' : optional [] textsOf? projects = some o.projects :=
    optional_of_optionally hprojects textsOf?_of_spells
  have hexisting' : optional false boolOf? existing = some o.existing :=
    optional_of_optionally hexisting boolOf?_of_spells
  simp only [List.map_cons, List.map_nil] at hread
  unfold Object.ofValue?
  rw [hread]
  simp only [textOf?_of_spells hoid, intOf?_of_spells hint hsize, hprojects', hexisting',
    Option.bind_eq_bind, Option.bind_some]

/-- **A project is read from every map that carries it.** -/
theorem Project.ofValue?_of_carries {p : Project} (hfields : p.Fields fields)
    (h : Carries fields entries) : Project.ofValue? (.map entries) = some p := by
  obtain ⟨name, oids, rfl, hname, hoids⟩ := hfields
  have hread := fieldsOf?_of_carries h (by simp)
  have hoids' : optional [] textsOf? oids = some p.oids :=
    optional_of_optionally hoids textsOf?_of_spells
  simp only [List.map_cons, List.map_nil] at hread
  unfold Project.ofValue?
  rw [hread]
  simp only [textOf?_of_spells hname, hoids', Option.bind_eq_bind, Option.bind_some]

/-- **A user is read from every map that carries it.** -/
theorem User.ofValue?_of_carries {u : User} (hfields : u.Fields fields)
    (h : Carries fields entries) : User.ofValue? (.map entries) = some u := by
  obtain ⟨name, rfl, hname⟩ := hfields
  have hread := fieldsOf?_of_carries h (by simp)
  simp only [List.map_cons, List.map_nil] at hread
  unfold User.ofValue?
  rw [hread]
  simp only [textOf?_of_spells hname, Option.map_some]

end Depot.Registry
