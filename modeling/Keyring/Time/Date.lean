/-!
# Calendar dates

The proleptic Gregorian calendar, with a year zero and negative years. Days are counted from
1970-01-01; inside the count, years begin in March, so that a leap day is the last of its year.

* `Date.toDays` counts the days up to a date, `Date.ofDays` finds the date of a day.
-/

namespace Keyring

structure Date where
  year : Int
  month : Nat
  day : Nat
  deriving DecidableEq, Repr

namespace Date

def isLeapYear (year : Int) : Bool :=
  year % 4 == 0 && (year % 100 != 0 || year % 400 == 0)

def monthLength (year : Int) (month : Nat) : Nat :=
  if month = 2 then (if isLeapYear year then 29 else 28)
  else if month = 4 ∨ month = 6 ∨ month = 9 ∨ month = 11 then 30
  else 31

/-- Whether the calendar has this date. -/
def isValid (d : Date) : Bool :=
  1 ≤ d.month && d.month ≤ 12 && 1 ≤ d.day && d.day ≤ monthLength d.year d.month

/-- Days before the month, in a year that begins in March; `month` counts from zero. -/
def daysBeforeMonth (month : Nat) : Nat := (153 * month + 2) / 5

/-- Days before the year, in a cycle of 400 years. -/
def daysBeforeYear (year : Nat) : Nat := 365 * year + year / 4 - year / 100

/-- The days from 1970-01-01 to a date. -/
def toDays (d : Date) : Int :=
  let year := if d.month ≤ 2 then d.year - 1 else d.year
  let month := (d.month + 9) % 12
  year / 400 * 146097 + daysBeforeYear (year % 400).toNat + daysBeforeMonth month + d.day - 719469

/-- The year in a cycle of 400 years that holds a day of it. -/
def yearOfDay (day : Nat) : Nat := (day - day / 1460 + day / 36524 - day / 146096) / 365

/-- The date of a day counted from 1970-01-01. -/
def ofDays (days : Int) : Date :=
  let n := days + 719468
  let dayOfCycle := (n % 146097).toNat
  let year := yearOfDay dayOfCycle
  let dayOfYear := dayOfCycle - daysBeforeYear year
  let month := (5 * dayOfYear + 2) / 153
  let civilMonth := if month < 10 then month + 3 else month - 9
  let civilYear : Int := n / 146097 * 400 + year
  ⟨if civilMonth ≤ 2 then civilYear + 1 else civilYear, civilMonth,
    dayOfYear - daysBeforeMonth month + 1⟩

end Date

end Keyring
