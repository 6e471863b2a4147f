/-!
# Numbers

A number is a double, kept by its sixty-four bits: a sign, eleven bits of exponent and fifty-two
of fraction. An undefined number stands for the result of a computation that has none. It has a
sign like any other number, which is never shown but decides where it stands in the order of
numbers.
-/
namespace Spreadsheet

/-- A double. -/
structure Number where
  bits : UInt64
deriving DecidableEq, Repr, Inhabited

namespace Number

/-- The number of a floating-point value. An undefined value has the positive sign. -/
def ofFloat (x : Float) : Number := ⟨x.toBits⟩

/-- The floating-point value of a number, which does not tell undefined numbers apart. -/
def toFloat (x : Number) : Float := .ofBits x.bits

instance (n : Nat) : OfNat Number n := ⟨ofFloat (.ofNat n)⟩

/-- The infinite number of the positive sign. -/
def infinity : Number := ⟨0x7ff0000000000000⟩

/-- The undefined number of the positive sign. -/
def undefined : Number := ⟨0x7ff8000000000000⟩

/-- The sign bit, which zero and undefined numbers have too. -/
def isNegative (x : Number) : Bool := x.bits >>> 63 == 1

/-- The number without its sign. -/
def magnitude (x : Number) : Number := ⟨x.bits &&& 0x7fffffffffffffff⟩

/-- The number with the other sign. -/
def negate (x : Number) : Number := ⟨x.bits ^^^ 0x8000000000000000⟩

/-- The number is neither infinite nor undefined. -/
def isFinite (x : Number) : Bool := decide (x.magnitude.bits < infinity.bits)

/-- The number is infinite. -/
def isInfinite (x : Number) : Bool := x.magnitude == infinity

/-- The number is undefined. -/
def isUndefined (x : Number) : Bool := decide (infinity.bits < x.magnitude.bits)

/-- Apply an operation to two numbers. An undefined operand is the result, the left one of two. A
result that is undefined for other operands has the negative sign. -/
def combine (f : Float → Float → Float) (x y : Number) : Number :=
  if x.isUndefined then x
  else if y.isUndefined then y
  else
    let z := ofFloat (f x.toFloat y.toFloat)
    if z.isUndefined then undefined.negate else z

instance : Add Number := ⟨combine (· + ·)⟩

instance : Div Number := ⟨combine (· / ·)⟩

/-- The smaller of two numbers, the right one if they are equal. An undefined number is taken only
if both are, the left one of them. -/
def smaller (x y : Number) : Number :=
  if y.isUndefined || decide (x.toFloat < y.toFloat) then x else y

/-- The larger of two numbers, the right one if they are equal. An undefined number is taken only
if both are, the left one of them. -/
def larger (x y : Number) : Number :=
  if y.isUndefined || decide (y.toFloat < x.toFloat) then x else y

/-- The place of a number in the total order of numbers: negative zero stands before zero, and an
undefined number beyond infinity on the side of its sign. -/
def orderKey (x : Number) : Int :=
  let place : Int := x.magnitude.bits.toNat
  if x.isNegative then -place - 1 else place

end Number

end Spreadsheet
