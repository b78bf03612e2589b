/-!
# The calendar

Dates of the Gregorian calendar, extended to all years before and after its
introduction.  Days are counted from the first of January of the year zero.

## Main Definitions

* `Calendar.isLeap`, `Calendar.monthLengths` — the lengths of years and months.
* `Calendar.daysBefore` — the number of the first day of a year.
* `Calendar.Date` — a date; `Date.dayNumber` and `Date.ofDayNumber` count its days.
-/

namespace Sequencer.Calendar

/-- Whether a year has a leap day. -/
def isLeap (year : Int) : Bool := year % 4 = 0 && (year % 100 ≠ 0 || year % 400 = 0)

/-- The lengths of the months of a year. -/
def monthLengths (leap : Bool) : List Nat :=
  [31, if leap then 29 else 28, 31, 30, 31, 30, 31, 31, 30, 31, 30, 31]

/-- The number of the first day of a year: 365 days for each year before it, and
the leap days among them. -/
def daysBefore (year : Int) : Int :=
  365 * year + (year + 3) / 4 - (year + 99) / 100 + (year + 399) / 400

/-- A date by year, month and day; months and days count from one. -/
structure Date where
  year : Int
  month : Nat
  day : Nat
  deriving DecidableEq, Repr

namespace Date

/-- Whether the month and the day exist. -/
def isValid (d : Date) : Bool :=
  1 ≤ d.month && d.month ≤ 12 && 1 ≤ d.day &&
    d.day ≤ (monthLengths (isLeap d.year)).getD (d.month - 1) 0

/-- The number of days of a year before the first of a month. -/
def daysBeforeMonth (leap : Bool) (month : Nat) : Nat :=
  ((monthLengths leap).take (month - 1)).foldr (· + ·) 0

/-- The number of a date. -/
def dayNumber (d : Date) : Int :=
  daysBefore d.year + daysBeforeMonth (isLeap d.year) d.month + (d.day - 1)

/-- The month and the day of a day within a year, both counted from zero. -/
def monthAndDay : List Nat → Nat → Nat × Nat
  | [], day => (0, day)
  | length :: rest, day =>
      if day < length then (0, day)
      else
        let (month, day) := monthAndDay rest (day - length)
        (month + 1, day)

/-- The year in which a day lies.  An estimate by the mean length of a year is at
most one year off. -/
def yearOf (day : Int) : Int :=
  let estimate := 400 * day / 146097
  if day < daysBefore estimate then estimate - 1
  else if daysBefore (estimate + 1) ≤ day then estimate + 1
  else estimate

/-- The date of a day. -/
def ofDayNumber (day : Int) : Date :=
  let year := yearOf day
  let (month, d) := monthAndDay (monthLengths (isLeap year)) (day - daysBefore year).toNat
  ⟨year, month + 1, d + 1⟩

end Date

end Sequencer.Calendar
