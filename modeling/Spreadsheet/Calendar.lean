/-!
# Calendar and clock

A moment is a day, counted from 31 December 1899, and a second of that day. Its date in the
Gregorian calendar, which is extended in both directions, is read off the day. Years count from
March inside the computation, so that the leap day is the last of its year.
-/
namespace Spreadsheet

/-- A date by year, month and day. The year before year one is year zero. -/
structure Date where
  year : Int
  month : Nat
  day : Nat
deriving DecidableEq, Repr

namespace Date

/-- The year has a leap day. -/
def isLeapYear (year : Int) : Bool := year % 4 == 0 && (year % 100 != 0 || year % 400 == 0)

/-- The number of days of a month. -/
def daysInMonth (year : Int) (month : Nat) : Nat :=
  if month = 2 then if isLeapYear year then 29 else 28
  else if month = 4 ∨ month = 6 ∨ month = 9 ∨ month = 11 then 30
  else 31

/-- The days from 1 March of year zero to 31 December 1899. -/
def epochOffset : Int := 693900

/-- The day of a date, counted from 31 December 1899. -/
def toDay (date : Date) : Int :=
  let year := if date.month ≤ 2 then date.year - 1 else date.year
  let month : Int := if date.month ≤ 2 then date.month + 9 else date.month - 3
  let century := year / 400
  let yearOfCentury := year % 400
  let dayOfYear := (153 * month + 2) / 5 + date.day - 1
  century * 146097 + yearOfCentury * 365 + yearOfCentury / 4 - yearOfCentury / 100 + dayOfYear -
    epochOffset

/-- The date of a day counted from 31 December 1899. -/
def ofDay (day : Int) : Date :=
  let century := (day + epochOffset) / 146097
  let dayOfCentury := (day + epochOffset) % 146097
  let yearOfCentury :=
    (dayOfCentury - dayOfCentury / 1460 + dayOfCentury / 36524 - dayOfCentury / 146096) / 365
  let dayOfYear := dayOfCentury - (365 * yearOfCentury + yearOfCentury / 4 - yearOfCentury / 100)
  let month := (5 * dayOfYear + 2) / 153
  let year := century * 400 + yearOfCentury
  let day := dayOfYear - (153 * month + 2) / 5 + 1
  if month < 10 then ⟨year, (month + 3).toNat, day.toNat⟩
  else ⟨year + 1, (month - 9).toNat, day.toNat⟩

/-- The date exists in the calendar. -/
def isValid (date : Date) : Bool :=
  decide (1 ≤ date.month) && decide (date.month ≤ 12) && decide (1 ≤ date.day) &&
    decide (date.day ≤ daysInMonth date.year date.month)

end Date

/-- The first day that can be represented, 1 January of the year -262143. -/
def firstDay : Int := Date.toDay ⟨-262143, 1, 1⟩

/-- The last day that can be represented, 31 December of the year 262142. -/
def lastDay : Int := Date.toDay ⟨262142, 12, 31⟩

/-- A second of a day. -/
structure Moment where
  day : Int
  second : Nat
  first_le : firstDay ≤ day
  le_last : day ≤ lastDay
  second_lt : second < 86400
deriving DecidableEq, Repr

namespace Moment

/-- The moment of a day and a second, if the day can be represented. -/
def make? (day : Int) (second : Nat) : Option Moment :=
  if h : firstDay ≤ day ∧ day ≤ lastDay ∧ second < 86400 then
    some ⟨day, second, h.1, h.2.1, h.2.2⟩
  else none

/-- The moment that calendar and clock show, if there is one. -/
def ofClock? (date : Date) (hour minute second : Nat) : Option Moment :=
  if date.isValid && decide (hour < 24) && decide (minute < 60) && decide (second < 60) then
    make? date.toDay (3600 * hour + 60 * minute + second)
  else none

/-- The date of a moment. -/
def date (m : Moment) : Date := .ofDay m.day

/-- Hour, minute and second of a moment. -/
def clock (m : Moment) : Nat × Nat × Nat :=
  (m.second / 3600, m.second / 60 % 60, m.second % 60)

end Moment

end Spreadsheet
