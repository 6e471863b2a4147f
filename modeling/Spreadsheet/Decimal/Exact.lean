/-!
# Doubles as exact numbers

A finite double is a natural mantissa times a power of two. Its decimal text and its rounding
to a number of places are computed on that pair in exact arithmetic, never on the double.
Reading goes the other way: a decimal mantissa and exponent name the nearest double.
-/
namespace Spreadsheet.Decimal

/-- The magnitude of a finite double, `mantissa * 2 ^ exponent`. -/
structure Exact where
  mantissa : Nat
  exponent : Int
  /-- The gap to the double below is half the gap to the double above. -/
  narrowBelow : Bool
deriving DecidableEq, Repr

namespace Exact

/-- The magnitude that the bits of a finite double stand for. -/
def ofBits (bits : UInt64) : Exact :=
  let biased := ((bits >>> 52) &&& 0x7ff).toNat
  let fraction := (bits &&& 0xfffffffffffff).toNat
  if biased = 0 then ⟨fraction, -1074, false⟩
  else ⟨Nat.pow 2 52 + fraction, (biased : Int) - 1075, fraction == 0 && decide (1 < biased)⟩

/-- The magnitude of a finite double. -/
def ofFloat (x : Float) : Exact := ofBits x.toBits

/-- The magnitude as a quotient of naturals, its denominator a power of two. -/
def quotient (x : Exact) : Nat × Nat :=
  (x.mantissa * Nat.pow 2 x.exponent.toNat, Nat.pow 2 (-x.exponent).toNat)

end Exact

/-- The sign bit of a double, which zero has too. -/
def signBit (x : Float) : Bool := x.toBits >>> 63 == 1

/-- The nearest integer to a quotient; of two equally near the even one. -/
def roundQuotient (numerator denominator : Nat) : Nat :=
  let quotient := numerator / denominator
  let remainder := numerator % denominator
  if 2 * remainder < denominator then quotient
  else if denominator < 2 * remainder then quotient + 1
  else if quotient % 2 = 0 then quotient else quotient + 1

/-- The number of decimal digits of a natural number; zero has one. -/
def digitCount (n : Nat) : Nat := (Nat.toDigits 10 n).length

/-- The number of binary places of the smallest positive double. -/
def binaryPlaces : Nat := 1074

/-- The bits of the double nearest to a quotient of naturals. The quotient is counted in units of the
smallest positive double, and its binary digits beyond a mantissa move into the exponent. Beyond the
largest double there is infinity. -/
def nearestBits (numerator denominator : Nat) : UInt64 :=
  let units := numerator * Nat.pow 2 binaryPlaces
  let shift := Nat.log2 (units / denominator) - 52
  let mantissa := roundQuotient units (denominator * Nat.pow 2 shift)
  .ofNat (min (shift * Nat.pow 2 52 + mantissa) 0x7ff0000000000000)

/-- The bits of the double nearest to `digits * 10 ^ exponent`. Far beyond the range of doubles it is
infinite or zero, which is decided on the exponent alone so that no huge power is built. -/
def nearest (digits : Nat) (exponent : Int) : UInt64 :=
  let leading := exponent + digitCount digits
  if digits = 0 ∨ leading < -400 then 0
  else if 400 < leading then 0x7ff0000000000000
  else nearestBits (digits * Nat.pow 10 exponent.toNat) (Nat.pow 10 (-exponent).toNat)

end Spreadsheet.Decimal
