import Spreadsheet.Decimal.Exact

/-!
# The fewest digits that name a double

Every real number nearer to a double than to its neighbours reads back as that double, and so
do the two halfway points when the mantissa is even. Among the decimals in that interval the one
with the fewest digits is chosen; of two that short the nearer, and of two equally near the
larger.
-/
namespace Spreadsheet.Decimal

/-- A decimal number, `digits * 10 ^ exponent`. -/
structure Scientific where
  digits : Nat
  exponent : Int
deriving DecidableEq, Repr

namespace Scientific

/-- Order of `digits * 10 ^ exponent` against `factor * 2 ^ power`, in exact arithmetic. -/
def compareBinary (d : Scientific) (factor : Nat) (power : Int) : Ordering :=
  compare (d.digits * Nat.pow 10 d.exponent.toNat * Nat.pow 2 (-power).toNat)
    (factor * Nat.pow 2 power.toNat * Nat.pow 10 (-d.exponent).toNat)

/-- Move trailing zeros of the digits into the exponent, at most `fuel` of them. -/
def dropZeros : Nat → Scientific → Scientific
  | 0, d => d
  | fuel + 1, d =>
    if d.digits ≠ 0 ∧ d.digits % 10 = 0 then dropZeros fuel ⟨d.digits / 10, d.exponent + 1⟩ else d

end Scientific

namespace Exact

/-- The decimal lies among the real numbers that round to the double. -/
def readsBack (x : Exact) (d : Scientific) : Bool :=
  let below := if x.narrowBelow then 4 * x.mantissa - 1 else 4 * x.mantissa - 2
  let above := 4 * x.mantissa + 2
  let closed := x.mantissa % 2 == 0
  let low := d.compareBinary below (x.exponent - 2)
  let high := d.compareBinary above (x.exponent - 2)
  (low == .gt || (closed && low == .eq)) && (high == .lt || (closed && high == .eq))

/-- The least power of ten above a positive magnitude, as its exponent. -/
def scale (x : Exact) : Int :=
  let (numerator, denominator) := x.quotient
  if denominator ≤ numerator then digitCount (numerator / denominator)
  else 1 - (digitCount ((denominator - 1) / numerator) : Int)

/-- The largest multiple of `10 ^ exponent` that does not exceed the magnitude. -/
def truncate (x : Exact) (exponent : Int) : Nat :=
  let (numerator, denominator) := x.quotient
  numerator * Nat.pow 10 (-exponent).toNat / (denominator * Nat.pow 10 exponent.toNat)

/-- The decimal on the grid of `10 ^ exponent` that reads back and is nearest, if any: only the
two neighbours of the magnitude on the grid can be. -/
def onGrid? (x : Exact) (exponent : Int) : Option Scientific :=
  let lower : Scientific := ⟨x.truncate exponent, exponent⟩
  let upper : Scientific := ⟨x.truncate exponent + 1, exponent⟩
  match x.readsBack lower, x.readsBack upper with
  | false, false => none
  | true, false => some lower
  | false, true => some upper
  | true, true =>
    let middle : Scientific := ⟨lower.digits + upper.digits, exponent⟩
    if middle.compareBinary (2 * x.mantissa) x.exponent == .gt then some lower else some upper

/-- The exact decimal value of the magnitude. -/
def expand (x : Exact) : Scientific :=
  ⟨x.mantissa * Nat.pow 2 x.exponent.toNat * Nat.pow 5 (-x.exponent).toNat, min x.exponent 0⟩

/-- The decimal with the fewest digits that names a positive double. Seventeen digits always
suffice; the exact value stands behind them so that the answer is never a guess. -/
def shortest (x : Exact) : Scientific :=
  let grids := (List.range 17).map fun (count : Nat) => x.scale - 1 - (count : Int)
  let found := (grids.findSome? x.onGrid?).getD x.expand
  found.dropZeros (digitCount found.digits)

end Exact

end Spreadsheet.Decimal
