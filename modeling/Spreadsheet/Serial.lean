import Spreadsheet.Calendar
import Spreadsheet.Decimal.Exact

/-!
# Serial numbers of moments

A moment is written as a number: whole days from 31 December 1899, so that 1 is 1 January 1900,
and the time of day as a fraction. Number 60 is a leap day that 1900 did not have; it is kept, so
all later days have a number one higher than their distance from the start.

The rule is stated over any numbers that can be cut to whole ones. Cells use doubles; the exact
rational numbers obey the same rule without rounding.
-/
namespace Spreadsheet

/-- Numbers in which serial numbers can be computed. -/
class SerialNumber (α : Type) extends Add α, Sub α, Mul α, Div α where
  ofInt : Int → α
  /-- The integer next towards zero. -/
  truncate : α → Int
  /-- The nearest integer; of two equally near the one away from zero. -/
  round : α → Int
  /-- The number is neither infinite nor undefined. -/
  isFinite : α → Bool

namespace SerialNumber

/-- The integer next towards zero of a double. -/
def truncateFloat (x : Float) : Int :=
  let (numerator, denominator) := (Decimal.Exact.ofFloat x).quotient
  let magnitude : Int := (numerator / denominator : Nat)
  if Decimal.signBit x then -magnitude else magnitude

instance : SerialNumber Float where
  ofInt := Float.ofInt
  truncate := truncateFloat
  round x := truncateFloat x.round
  isFinite := Float.isFinite

instance : SerialNumber Rat where
  ofInt n := n
  truncate q := Int.tdiv q.num q.den
  round q := if q < 0 then -((1 / 2 - q).floor) else (q + 1 / 2).floor
  isFinite _ := true

end SerialNumber

/-- The serial number of the leap day that 1900 did not have. -/
def phantomDay : Int := 60

namespace Moment

variable {α : Type} [SerialNumber α]

/-- The seconds of a day as a number. -/
def secondsPerDay : α := SerialNumber.ofInt 86400

/-- The number of a day as it stands in serial numbers. -/
def serialDay (day : Int) : Int := if phantomDay ≤ day then day + 1 else day

/-- The serial number of a moment. -/
def toSerial (m : Moment) : α :=
  SerialNumber.ofInt (serialDay m.day) + SerialNumber.ofInt m.second / secondsPerDay

/-- The moment of a serial number, if it can be represented. The day is the whole part, cut
towards zero, and the time the fraction, to the nearest second and taken modulo a day. -/
def ofSerial? (serial : α) : Option Moment :=
  if SerialNumber.isFinite serial then
    let whole := SerialNumber.truncate serial
    let fraction := serial - SerialNumber.ofInt whole
    let seconds := SerialNumber.round (fraction * secondsPerDay)
    let day := if whole < phantomDay then whole else whole - 1
    make? day (seconds % 86400).toNat
  else none

end Moment

end Spreadsheet
