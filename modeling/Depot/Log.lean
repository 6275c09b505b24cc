import Depot.Text.Case
import Depot.Text.Cut
import Depot.Text.Decimal

/-!
# Log events

What a command reports while it runs, and which of its events are shown: a filter names the least
level for all events, or for those of the parts whose names start in some way.

Headlines
* `Filter.parse` reads a filter, and `Filter.shows` decides on an event.
-/

namespace Depot.Log

/-- How much an event matters. -/
inductive Level where
  /-- Something failed. -/
  | error
  /-- Something may be wrong. -/
  | warn
  /-- Something was done. -/
  | info
  /-- Something of interest to those who look for faults. -/
  | debug
  /-- Everything else. -/
  | trace
deriving DecidableEq, Repr

/-- The name of a level. -/
def Level.name : Level → String
  | .error => "ERROR"
  | .warn => "WARN"
  | .info => "INFO"
  | .debug => "DEBUG"
  | .trace => "TRACE"

/-- The number of a level: the more it matters, the lower. -/
def Level.rank : Level → Nat
  | .error => 1
  | .warn => 2
  | .info => 3
  | .debug => 4
  | .trace => 5

/-- The value of a field. -/
inductive Value where
  /-- A text. -/
  | text (s : String)
  /-- A number. -/
  | number (n : Nat)
deriving DecidableEq, Repr

/-- An event. -/
structure Event where
  /-- How much it matters. -/
  level : Level
  /-- The part that reports it. -/
  target : String
  /-- What happened. -/
  message : String
  /-- Particulars. -/
  fields : List (String × Value) := []
deriving DecidableEq, Repr

/-- A line of a filter: events are shown up to a rank, none if it is zero. -/
structure Directive where
  /-- How the names of the parts start that it is about; all of them if it does not say. -/
  target : Option String
  /-- The highest rank that is shown. -/
  upTo : Nat
deriving DecidableEq, Repr

/-- Which events are shown. -/
abbrev Filter := List Directive

/-- The rank that a name or a number of a level stands for. -/
def rank? (text : String) : Option Nat :=
  (Text.natUpTo? 5 text).or <|
    if Text.sameLetters text "off" then some 0
    else ([Level.error, .warn, .info, .debug, .trace].find? fun l =>
      Text.sameLetters text l.name).map Level.rank

/-- Whether a directive may start with a character. -/
def startsDirective (c : Char) : Bool := c.isAlphanum || "-:_".toList.contains c

/-- Reads a directive: a level for all parts, a part, or a part and a level. A part without a level
shows everything. White space belongs to the part or the level that it stands beside, and may not
precede a part that has a level. -/
def Directive.parse? (text : String) : Option Directive :=
  if !(Text.trim text).toList.head?.any startsDirective || text.toList.contains '[' then none
  else
    match Text.cut '=' text.toList with
    | none =>
      match rank? text with
      | some rank => some ⟨none, rank⟩
      | none => some ⟨some text, Level.trace.rank⟩
    | some (target, level) =>
      let rank :=
        if target.head?.any Text.isBlank then none
        else if level.isEmpty then some Level.trace.rank
        else rank? (String.ofList level)
      rank.map fun rank => ⟨some (String.ofList target), rank⟩

namespace Filter

/-- The filter for a level. -/
def ofLevel (l : Level) : Filter := [⟨none, l.rank⟩]

/-- Reads a filter: directives between commas. One that cannot be read, or that is missing, shows
what was done; one without directives shows failures only. -/
def parse : Option String → Filter
  | none => ofLevel .info
  | some text =>
    let parts := ((Text.pieces ',' text.toList).map String.ofList).filter fun p => !p.isEmpty
    match parts.mapM Directive.parse? with
    | some [] => ofLevel .error
    | some directives => directives
    | none => ofLevel .info

/-- Whether a directive is about a part. -/
def concerns (d : Directive) (target : String) : Bool :=
  d.target.all fun start => start.toList.isPrefixOf target.toList

/-- How closely a directive names a part. -/
def closeness (d : Directive) : Nat := d.target.elim 0 fun start => start.utf8ByteSize + 1

/-- The closest of two directives; of equally close ones the later. -/
def closer (found : Option Directive) (d : Directive) : Option Directive :=
  match found with
  | some f => if closeness d < closeness f then some f else some d
  | none => some d

/-- Whether an event is shown: the directive that names its part most closely decides. -/
def shows (f : Filter) (e : Event) : Bool :=
  match (f.filter fun d => concerns d e.target).foldl closer none with
  | some d => e.level.rank ≤ d.upTo
  | none => false

end Filter

end Depot.Log
