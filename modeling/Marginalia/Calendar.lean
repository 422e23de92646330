import Marginalia.Text.Digits

/-!
# Calendar

The date and the time of day of a moment, which is given by the seconds since the beginning of 1970
in universal time.
-/

namespace Marginalia.Calendar

/-- A date of the Gregorian calendar. -/
structure Date where
  year : Int
  month : Nat
  day : Nat
  deriving DecidableEq, Repr

/-- The date of a day, by its distance in days from the first day of 1970. The days are counted in
eras of 400 years that begin on the first of March, so that a leap day ends a year. -/
def dateOfDay (day : Int) : Date :=
  let fromMarch := day + 719468
  let era := fromMarch / 146097
  let dayOfEra := (fromMarch % 146097).toNat
  let yearOfEra := (dayOfEra - dayOfEra / 1460 + dayOfEra / 36524 - dayOfEra / 146096) / 365
  let dayOfYear := dayOfEra - (365 * yearOfEra + yearOfEra / 4 - yearOfEra / 100)
  let shifted := (5 * dayOfYear + 2) / 153
  let dayOfMonth := dayOfYear - (153 * shifted + 2) / 5 + 1
  let month := if shifted < 10 then shifted + 3 else shifted - 9
  ⟨(yearOfEra : Int) + era * 400 + (if month ≤ 2 then 1 else 0), month, dayOfMonth⟩

/-- A moment, taken apart. -/
structure Moment where
  date : Date
  hour : Nat
  minute : Nat
  second : Nat
  deriving DecidableEq, Repr

/-- The moment so many seconds after the beginning of 1970. -/
def Moment.ofSeconds (s : Int) : Moment :=
  let ofDay := (s % 86400).toNat
  { date := dateOfDay (s / 86400)
    hour := ofDay / 3600
    minute := ofDay / 60 % 60
    second := ofDay % 60 }

/-- The day and the month with hyphens, behind a year. -/
def Date.text (d : Date) (year : String) : String :=
  year ++ "-" ++ Text.padded 2 d.month ++ "-" ++ Text.padded 2 d.day

/-- The time of day with colons. -/
def Moment.timeText (m : Moment) : String :=
  Text.padded 2 m.hour ++ ":" ++ Text.padded 2 m.minute ++ ":" ++ Text.padded 2 m.second

/-- The years that the plain form can show. -/
def isPlainYear (year : Int) : Bool :=
  -2147481748 ≤ year && year ≤ 2147483647

/-- Date and time to the second. The year has the digits that it needs. -/
def Moment.plain? (m : Moment) : Option String :=
  if isPlainYear m.date.year then
    some (m.date.text (toString m.date.year) ++ " " ++ m.timeText)
  else none

/-- Date and time as one word, with so many microseconds unless they are zero, and the distance from
universal time. The year has four digits: there is no text before the year 1 or after 9999. -/
def Moment.iso? (m : Moment) (microsecond : Nat) : Option String :=
  if 1 ≤ m.date.year && m.date.year ≤ 9999 then
    let fraction := if microsecond = 0 then "" else "." ++ Text.padded 6 microsecond
    let date := m.date.text (Text.padded 4 m.date.year.toNat)
    some (date ++ "T" ++ m.timeText ++ fraction ++ "+00:00")
  else none

end Marginalia.Calendar
