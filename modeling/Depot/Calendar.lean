/-!
# Dates

The day and the time of a number of seconds since the start of 1970, in the calendar that is in
civil use, carried on before its introduction and after today.
-/

namespace Depot

/-- A time to the second. -/
structure Calendar where
  /-- The year, which may be zero or less. -/
  year : Int
  /-- The month from one. -/
  month : Nat
  /-- The day of the month from one. -/
  day : Nat
  /-- The hour. -/
  hour : Nat
  /-- The minute. -/
  minute : Nat
  /-- The second. -/
  second : Nat
deriving DecidableEq, Repr

namespace Calendar

/-- A number in at least `width` digits. -/
def padded (width n : Nat) : String :=
  let digits := toString n
  String.ofList (List.replicate (width - digits.length) '0') ++ digits

/-- The date of a number of days since the start of 1970. Years are counted from March in eras of 400
years, so that leap days come last. -/
def dateOf (days : Int) : Int × Nat × Nat :=
  let shifted := days + 719468
  let era := shifted.fdiv 146097
  let dayOfEra := (shifted.fmod 146097).toNat
  let yearOfEra := (dayOfEra - dayOfEra / 1460 + dayOfEra / 36524 - dayOfEra / 146096) / 365
  let dayOfYear := dayOfEra - (365 * yearOfEra + yearOfEra / 4 - yearOfEra / 100)
  let shiftedMonth := (5 * dayOfYear + 2) / 153
  let day := dayOfYear - (153 * shiftedMonth + 2) / 5 + 1
  let month := if shiftedMonth < 10 then shiftedMonth + 3 else shiftedMonth - 9
  let year := (yearOfEra : Int) + era * 400
  (if month ≤ 2 then year + 1 else year, month, day)

/-- The first year that has dates. -/
def firstYear : Int := -262143

/-- The last year that has dates. -/
def lastYear : Int := 262142

/-- The time of a number of seconds since the start of 1970, if its year has dates. -/
def ofSeconds? (seconds : Int) : Option Calendar :=
  let (year, month, day) := dateOf (seconds.fdiv 86400)
  let time := (seconds.fmod 86400).toNat
  if firstYear ≤ year ∧ year ≤ lastYear then
    some ⟨year, month, day, time / 3600, time / 60 % 60, time % 60⟩
  else none

/-- A year in at least four digits, with a sign unless it is from 0 to 9999. -/
def yearText (year : Int) : String :=
  if year < 0 then "-" ++ padded 4 year.natAbs
  else if year > 9999 then s!"+{year}"
  else padded 4 year.toNat

/-- Year, month and day without separators. -/
def dateText (c : Calendar) : String := yearText c.year ++ padded 2 c.month ++ padded 2 c.day

/-- Date and time without separators, in the zone of Greenwich. -/
def stampText (c : Calendar) : String :=
  c.dateText ++ "T" ++ padded 2 c.hour ++ padded 2 c.minute ++ padded 2 c.second ++ "Z"

end Calendar

end Depot
