import Depot.Registry.Object
import Depot.MessagePack.Reader
import Depot.Text.Decimal

/-!
# Stored records

Objects, projects and users as they are kept in a key-value database: MessagePack maps from field
names to values, in a fixed order. Reading also accepts lists of the values in that order, field
numbers for names, fields in any order and fields unknown to it; fields that may be absent have a
default.
-/

namespace Depot.Registry

open MessagePack

/-- A text as a value. -/
def textValue (s : String) : Value := .text (Bytes.utf8 s)

/-- A number as a value. -/
def intValue : Int → Value
  | .ofNat n => .unsigned n
  | .negSucc n => .signed (.negSucc n)

/-- Named values as a map. -/
def recordValue (fields : List (String × Value)) : Value :=
  .map (fields.map fun f => (textValue f.1, f.2))

/-- The text of a value: a text or a byte string in UTF-8. -/
def textOf? : Value → Option String
  | .text b => Bytes.ofUtf8? b
  | .binary b => Bytes.ofUtf8? b
  | _ => none

/-- The number of a value, if it fits 64 bits with a sign. -/
def intOf? : Value → Option Int
  | .unsigned n => if Text.fitsInt64 n then some n else none
  | .signed n => if Text.fitsInt64 n then some n else none
  | _ => none

/-- The truth value of a value. -/
def boolOf? : Value → Option Bool
  | .bool b => some b
  | _ => none

/-- The texts of a list value. -/
def textsOf? : Value → Option (List String)
  | .array items => items.mapM textOf?
  | _ => none

/-- Which of the named fields a key means. A key that is a text means a field by name, one that is a
number by position; other keys are refused. -/
inductive FieldKey where
  /-- The field at a position. -/
  | known (i : Nat)
  /-- No field of the record. -/
  | unknown
deriving DecidableEq

/-- Which of the named fields a key means. -/
def fieldKey? (names : List String) (key : Value) : Option FieldKey :=
  let byName (b : Bytes) : FieldKey :=
    match names.findIdx? fun n => Bytes.utf8 n == b with
    | some i => .known i
    | none => .unknown
  match key with
  | .text b | .binary b => some (byName b)
  | .unsigned n => some (if n < names.length then .known n else .unknown)
  | _ => none

/-- Puts each value of a map at the position of its field. A field may come once. -/
def collect (names : List String) (found : List (Option Value)) :
    List (Value × Value) → Option (List (Option Value))
  | [] => some found
  | (key, v) :: rest =>
    match fieldKey? names key with
    | none => none
    | some .unknown => collect names found rest
    | some (.known i) =>
      match found[i]? with
      | some none => collect names (found.set i (some v)) rest
      | _ => none

/-- The values of the named fields of a record, in the order of the names. -/
def fieldsOf? (names : List String) : Value → Option (List (Option Value))
  | .map entries => collect names (names.map fun _ => none) entries
  | .array items =>
    if items.length ≤ names.length then
      some (items.map some ++ List.replicate (names.length - items.length) none)
    else none
  | _ => none

/-- The content of a field that may be absent. -/
def optional {α : Type} (default : α) (read : Value → Option α) : Option Value → Option α
  | none => some default
  | some v => read v

namespace Object

/-- An object as a value. -/
def toValue (o : Object) : Value :=
  recordValue
    [("oid", textValue o.oid), ("size", intValue o.size),
     ("project_names", .array (o.projects.map textValue)), ("existing", .bool o.existing)]

/-- The object of a value. -/
def ofValue? (v : Value) : Option Object :=
  match fieldsOf? ["oid", "size", "project_names", "existing"] v with
  | some [some oid, some size, projects, existing] => do
    some ⟨← textOf? oid, ← intOf? size, ← optional [] textsOf? projects,
      ← optional false boolOf? existing⟩
  | _ => none

/-- The stored form of an object. -/
def encode (o : Object) : Bytes := o.toValue.write

/-- The object at the start of a byte string. -/
def decode? (b : Bytes) : Option Object := (Value.read? b).bind ofValue?

end Object

namespace Project

/-- A project as a value. -/
def toValue (p : Project) : Value :=
  recordValue [("name", textValue p.name), ("oids", .array (p.oids.map textValue))]

/-- The project of a value. -/
def ofValue? (v : Value) : Option Project :=
  match fieldsOf? ["name", "oids"] v with
  | some [some name, oids] => do some ⟨← textOf? name, ← optional [] textsOf? oids⟩
  | _ => none

/-- The stored form of a project. -/
def encode (p : Project) : Bytes := p.toValue.write

/-- The project at the start of a byte string. -/
def decode? (b : Bytes) : Option Project := (Value.read? b).bind ofValue?

end Project

namespace User

/-- A user as a value. -/
def toValue (u : User) : Value := recordValue [("name", textValue u.name)]

/-- The user of a value. -/
def ofValue? (v : Value) : Option User :=
  match fieldsOf? ["name"] v with
  | some [some name] => (textOf? name).map fun n => ⟨n⟩
  | _ => none

/-- The stored form of a user. -/
def encode (u : User) : Bytes := u.toValue.write

/-- The user at the start of a byte string. -/
def decode? (b : Bytes) : Option User := (Value.read? b).bind ofValue?

end User

end Depot.Registry
