/-!
# Column letters

Columns are lettered `A` to `Z`, `AA` to `ZZ`, `AAA` and so on: numerals in base twenty-six whose
digits run from one to twenty-six, so that every column has exactly one name.
-/
namespace Spreadsheet

/-- Rows and columns are numbered from zero, below this bound. -/
def indexBound : Nat := 4294967296

namespace Column

/-- The capital letter of a digit between zero and twenty-five. -/
def letter (digit : Nat) : Char := Char.ofNat ('A'.toNat + digit)

/-- The place of a capital letter in the alphabet, from zero. -/
def letterIndex (c : Char) : Nat := c.toNat - 'A'.toNat

/-- The letters of a column. -/
def letters (column : Nat) : List Char :=
  if column < 26 then [letter column]
  else letters (column / 26 - 1) ++ [letter (column % 26)]

/-- A number that is below the bound, as the result of each operation on indices has to be. -/
def bounded? (n : Nat) : Option Nat := if n < indexBound then some n else none

/-- Go on from the number of the letters read so far. Every letter but the last adds one for the
shorter names that come before. -/
def readLetters? (value : Nat) : List Char → Option Nat
  | [] => some value
  | c :: rest =>
    if c.isUpper then do
      let shifted ← bounded? (value * 26)
      let placed ← bounded? (shifted + letterIndex c)
      let value ← if rest.isEmpty then some placed else bounded? (placed + 1)
      readLetters? value rest
    else none

/-- The column that capital letters name, if it is below the bound. -/
def ofLetters? (letters : List Char) : Option Nat :=
  if letters.isEmpty then none else readLetters? 0 letters

end Column

end Spreadsheet
