import Depot.Bytes.Hex
import Depot.Log

/-!
# Lines of a log

An event in the forms in which a log may show it: as plain text, or as an object of named values.
-/

namespace Depot.Log

/-- The forms of a line. -/
inductive Format where
  /-- Text for people. -/
  | plain
  /-- An object with the particulars in an object of their own. -/
  | nested
  /-- An object with the particulars beside the level. -/
  | flat
deriving DecidableEq, Repr

/-- The form that a setting asks for. -/
def Format.parse (setting : Option String) : Format :=
  match Text.lower (setting.getD "") with
  | "json" => .nested
  | "gcp" => .flat
  | _ => .plain

/-- How a quoted value shows a character. -/
def quoteChar (c : Char) : List Char :=
  match c with
  | '"' => ['\\', '"']
  | '\\' => ['\\', '\\']
  | '\n' => ['\\', 'n']
  | '\r' => ['\\', 'r']
  | '\t' => ['\\', 't']
  | c => if c.toNat < 0x20 then "\\u00".toList ++ Hex.byte c.toNat.toUInt8 else [c]

/-- A text between quotes. -/
def quoted (s : String) : String :=
  "\"" ++ String.ofList (s.toList.flatMap quoteChar) ++ "\""

/-- A value as an object shows it. -/
def Value.written : Value → String
  | .text s => quoted s
  | .number n => toString n

/-- An object of named values, which are already written. -/
def object (members : List (String × String)) : String :=
  "\x7b" ++ String.intercalate "," (members.map fun m => quoted m.1 ++ ":" ++ m.2) ++ "\x7d"

namespace Event

/-- The message and the particulars, as an object shows them. -/
def members (e : Event) : List (String × String) :=
  ("message", quoted e.message) :: e.fields.map fun f => (f.1, f.2.written)

/-- A particular as plain text. -/
def particular (f : String × Value) : String :=
  match f.2 with
  | .text s => s!" {f.1}={s}"
  | .number n => s!" {f.1}={n}"

/-- The line of an event. -/
def line (e : Event) : Format → String
  | .plain =>
    s!"{e.level.name} {e.target}: {e.message}" ++ String.join (e.fields.map particular)
  | .nested =>
    object [("level", quoted e.level.name), ("fields", object e.members),
      ("target", quoted e.target)]
  | .flat => object ([("severity", quoted e.level.name), ("target", quoted e.target)] ++ e.members)

end Event

end Depot.Log
