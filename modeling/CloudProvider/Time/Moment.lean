import CloudProvider.Exponent

/-! Moments as seconds since the start of 1970, and their text in universal time. -/

namespace CloudProvider.Time

/-- From `10 ^ 9` on, `nanos` counts into a leap second. -/
structure Moment where
  seconds : Int
  nanos : Nat
deriving DecidableEq, Repr

/-- A day of the Gregorian calendar, which is continued backwards without limit. -/
structure Date where
  year : Int
  month : Nat
  day : Nat
deriving DecidableEq, Repr

namespace Date

/-- Years are counted from March, so that a leap day ends one; 400 of them make an era of 146097
days. -/
def ofDays (days : Int) : Date :=
  let fromMarch := days + 719468
  let era := Int.fdiv fromMarch 146097
  let dayOfEra := (Int.fmod fromMarch 146097).toNat
  let yearOfEra :=
    (dayOfEra - dayOfEra / 1460 + dayOfEra / 36524 - dayOfEra / 146096) / 365
  let dayOfYear := dayOfEra - (365 * yearOfEra + yearOfEra / 4 - yearOfEra / 100)
  let monthFromMarch := (5 * dayOfYear + 2) / 153
  let day := dayOfYear - (153 * monthFromMarch + 2) / 5 + 1
  let month := if monthFromMarch < 10 then monthFromMarch + 3 else monthFromMarch - 9
  let year := era * 400 + yearOfEra + if month ≤ 2 then 1 else 0
  ⟨year, month, day⟩

end Date

namespace Moment

def padded (width n : Nat) : String :=
  let digits := toString n
  String.ofList (List.replicate (width - digits.length) '0') ++ digits

/-- Years outside of four digits carry a sign. -/
def yearText (year : Int) : String :=
  if 0 ≤ year ∧ year ≤ 9999 then padded 4 year.toNat
  else (if year < 0 then "-" else "+") ++ padded 4 year.natAbs

def stamp (m : Moment) : String :=
  let date := Date.ofDays (Int.fdiv m.seconds 86400)
  let secondOfDay := (Int.fmod m.seconds 86400).toNat
  let second := secondOfDay % 60 + m.nanos / 10 ^ 9
  yearText date.year ++ "-" ++ padded 2 date.month ++ "-" ++ padded 2 date.day ++ "T"
    ++ padded 2 (secondOfDay / 3600) ++ ":" ++ padded 2 (secondOfDay / 60 % 60) ++ ":"
    ++ padded 2 second ++ "Z"

/-- Whole milliseconds since the start of 1970, counted down before it. -/
def millis (m : Moment) : Int :=
  m.seconds * 1000 + m.nanos / 10 ^ 6

end Moment
end CloudProvider.Time
