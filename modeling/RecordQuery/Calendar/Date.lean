import RecordQuery.Number.Numeral

/-!
# Dates

Days of the Gregorian calendar from year 1 to year 9999. Each day has a number, counted from the
first of January of year 1, so that days can be compared and moved.

* `Date` is the type; `Date.make?` checks year, month and day;
* `Date.ordinal` is the number of a day, `Date.ofOrdinal?` the day of a number;
* `Date.ofWeek?` is the day given by year, week and weekday;
* `Date.render` is the form `YYYY-MM-DD`.
-/

namespace RecordQuery

/-- Whether a year has a 29th of February. -/
def isLeapYear (year : Nat) : Bool := year % 4 == 0 && (year % 100 != 0 || year % 400 == 0)

/-- The number of days of a month. -/
def daysInMonth (year month : Nat) : Nat :=
  if month = 2 then if isLeapYear year then 29 else 28
  else if month = 4 ∨ month = 6 ∨ month = 9 ∨ month = 11 then 30
  else 31

/-- Whether three numbers denote a day between the years 1 and 9999. -/
def isDate (year month day : Nat) : Bool :=
  1 ≤ year && year ≤ 9999 && 1 ≤ month && month ≤ 12 && 1 ≤ day && day ≤ daysInMonth year month

/-- A day of the calendar. -/
structure Date where
  year : Nat
  month : Nat
  day : Nat
  valid : isDate year month day = true
  deriving DecidableEq, Repr

namespace Date

instance : Inhabited Date := ⟨⟨1, 1, 1, by decide⟩⟩

/-- The day of a year, a month and a day of the month, if there is one. -/
def make? (year month day : Nat) : Option Date :=
  if h : isDate year month day = true then some ⟨year, month, day, h⟩ else none

/-- The number of days before the first of January of a year. -/
def daysBeforeYear (year : Nat) : Nat :=
  let y := year - 1
  y * 365 + y / 4 - y / 100 + y / 400

/-- The number of days before the first of a month within its year. -/
def daysBeforeMonth (year month : Nat) : Nat :=
  (List.range (month - 1)).foldl (fun days m => days + daysInMonth year (m + 1)) 0

/-- The number of a day; the first of January of year 1 is day 1. -/
def ordinal (d : Date) : Nat := daysBeforeYear d.year + daysBeforeMonth d.year d.month + d.day

/-- The year in which the day after so many days lies: a first guess from the mean length of a
year is at most one year off. -/
def yearAfter (days : Nat) : Nat :=
  let guess := days * 400 / 146097 + 1
  if days < daysBeforeYear guess then guess - 1
  else if daysBeforeYear (guess + 1) ≤ days then guess + 1
  else guess

/-- The month and day after so many days of a year, searched from a month on. -/
def monthAfter (year : Nat) : Nat → Nat → Nat → Nat × Nat
  | 0, month, days => (month, days + 1)
  | left + 1, month, days =>
    let length := daysInMonth year month
    if days < length then (month, days + 1) else monthAfter year left (month + 1) (days - length)

/-- The day of a number, within the calendar. -/
def ofOrdinal? (n : Int) : Option Date :=
  if n ≤ 0 then none
  else
    let days := n.toNat - 1
    let year := yearAfter days
    let (month, day) := monthAfter year 11 1 (days - daysBeforeYear year)
    make? year month day

/-- The weekday of a day number, from 0 for Monday to 6 for Sunday. -/
def weekday (n : Nat) : Nat := (n + 6) % 7

/-- The number of the Monday of the first week of a year: the week that holds its first
Thursday. -/
def firstMonday (year : Nat) : Int :=
  let first := daysBeforeYear year + 1
  let w := weekday first
  let monday : Int := first - w
  if 3 < w then monday + 7 else monday

/-- Whether a year has 53 weeks. -/
def isLongYear (year : Nat) : Bool :=
  let w := weekday (daysBeforeYear year + 1)
  w == 3 || (w == 2 && isLeapYear year)

/-- The day given by a year, a week of it and a weekday from 1 for Monday to 7. -/
def ofWeek? (year week day : Nat) : Option Date :=
  if 1 ≤ year ∧ year ≤ 9999 ∧ 1 ≤ week ∧ (week ≤ 52 ∨ (week = 53 ∧ isLongYear year = true)) ∧
      1 ≤ day ∧ day ≤ 7 then
    ofOrdinal? (firstMonday year + ((week - 1) * 7 + day - 1 : Nat))
  else none

/-- The form `YYYY-MM-DD`. -/
def render (d : Date) : List Char :=
  Numeral.padded 4 d.year ++ '-' :: Numeral.padded 2 d.month ++ '-' :: Numeral.padded 2 d.day

end Date
end RecordQuery
