import Spreadsheet.Decimal.Shortest
import Spreadsheet.Number

/-!
# Decimal text of numbers

A number is written in positional notation with the fewest digits that name it, whatever its
size, or rounded to a given number of places. It is read from an optional sign, digits with an
optional point, and an optional exponent; `inf`, `infinity` and `nan` are read in any letter case.
-/
namespace Spreadsheet.Decimal

/-- Positional text of `digits * 10 ^ exponent`. -/
def Scientific.positional (d : Scientific) : List Char :=
  let digits := Nat.toDigits 10 d.digits
  if 0 ≤ d.exponent then digits ++ List.replicate d.exponent.toNat '0'
  else
    let places := d.exponent.natAbs
    let padded := List.replicate (places + 1 - digits.length) '0' ++ digits
    padded.take (padded.length - places) ++ '.' :: padded.drop (padded.length - places)

/-- Text of a number: no exponent, no point after an integer, and the sign of a negative zero. -/
def text (x : Number) : String :=
  if x.isUndefined then "NaN"
  else
    let sign := if x.isNegative then "-" else ""
    if x.isInfinite then sign ++ "inf"
    else
      let exact := Exact.ofBits x.bits
      if exact.mantissa = 0 then sign ++ "0"
      else sign ++ String.ofList exact.shortest.positional

/-- Text of the magnitude of a number with exactly `places` places. The exact value is rounded,
and a half goes to the even neighbour. -/
def fixedText (places : Nat) (x : Float) : String :=
  if x.isNaN then "NaN"
  else if x.isInf then "inf"
  else
    let (numerator, denominator) := (Exact.ofFloat x).quotient
    let units := roundQuotient (numerator * Nat.pow 10 places) denominator
    String.ofList (Scientific.positional ⟨units, -(places : Int)⟩)

/-- The digit a character stands for. -/
def digitValue (c : Char) : Nat := c.toNat - '0'.toNat

/-- The number that a list of digit characters writes. -/
def ofDigits (digits : List Char) : Nat :=
  digits.foldl (fun value c => 10 * value + digitValue c) 0

/-- Read an exponent after its mark: an optional sign and at least one digit, nothing else. -/
def readExponent? (text : List Char) : Option Int :=
  let (negative, digits) := match text with
    | '+' :: rest => (false, rest)
    | '-' :: rest => (true, rest)
    | rest => (false, rest)
  if digits.isEmpty || !digits.all Char.isDigit then none
  else some (if negative then -(ofDigits digits : Int) else ofDigits digits)

/-- Read an unsigned number as digits and a power of ten. -/
def readUnsigned? (text : List Char) : Option Scientific :=
  let whole := text.takeWhile Char.isDigit
  let rest := text.dropWhile Char.isDigit
  let (places, rest) := match rest with
    | '.' :: rest => (rest.takeWhile Char.isDigit, rest.dropWhile Char.isDigit)
    | rest => ([], rest)
  let digits := whole ++ places
  if digits.isEmpty then none
  else
    let number : Scientific := ⟨ofDigits digits, -(places.length : Int)⟩
    match rest with
    | [] => some number
    | mark :: rest =>
      if mark == 'e' || mark == 'E' then
        (readExponent? rest).map fun exponent =>
          { number with exponent := number.exponent + exponent }
      else none

/-- Read the number a text writes, the whole text and nothing but the number. -/
def read? (text : List Char) : Option Number :=
  let (negative, rest) := match text with
    | '+' :: rest => (false, rest)
    | '-' :: rest => (true, rest)
    | rest => (false, rest)
  let magnitude : Option Number := match readUnsigned? rest with
    | some number => some ⟨nearest number.digits number.exponent⟩
    | none =>
      let word := String.ofList (rest.map Char.toLower)
      if word == "inf" || word == "infinity" then some .infinity
      else if word == "nan" then some .undefined
      else none
  magnitude.map fun x => if negative then x.negate else x

end Spreadsheet.Decimal
