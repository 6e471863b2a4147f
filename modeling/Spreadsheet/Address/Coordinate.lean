import Spreadsheet.Address.Position
import Spreadsheet.Decimal.Text

/-!
# Cell coordinates of references

A coordinate is a cell as a formula writes it: row and column within the grid, and for each axis
whether a dollar sign fixes it when the formula is copied.
-/
namespace Spreadsheet

/-- The last row a reference can name. -/
def lastRow : Nat := 1048575

/-- The last column a reference can name. -/
def lastColumn : Nat := 16383

/-- Why no coordinate has the given row and column. -/
inductive CoordinateError where
  | rowTooLarge (row : Int)
  | columnTooLarge (column : Int)
  | rowNegative (row : Int)
  | columnNegative (column : Int)
deriving DecidableEq, Repr

/-- The wording of a coordinate error. -/
def CoordinateError.message : CoordinateError → String
  | .rowTooLarge row => s!"row {row} exceeds {lastRow}"
  | .columnTooLarge column => s!"col {column} exceeds {lastColumn}"
  | .rowNegative row => s!"row {row} is negative"
  | .columnNegative column => s!"col {column} is negative"

/-- A cell of the grid with the two dollar signs. -/
structure Coordinate where
  row : Nat
  column : Nat
  rowFixed : Bool
  columnFixed : Bool
  row_le : row ≤ lastRow := by omega
  column_le : column ≤ lastColumn := by omega
deriving DecidableEq, Repr

namespace Coordinate

/-- The coordinate with row and column cut to the grid. -/
def clamp (row column : Nat) (rowFixed columnFixed : Bool) : Coordinate where
  row := min row lastRow
  column := min column lastColumn
  rowFixed := rowFixed
  columnFixed := columnFixed

/-- The coordinate of a row and column, refused outside the grid. -/
def make (row column : Nat) (rowFixed columnFixed : Bool) : Except CoordinateError Coordinate :=
  if hr : row ≤ lastRow then
    if hc : column ≤ lastColumn then .ok ⟨row, column, rowFixed, columnFixed, hr, hc⟩
    else .error (.columnTooLarge column)
  else .error (.rowTooLarge row)

/-- The coordinate of a signed row and column. A negative number is reported before one that is
too large, and the row before the column. -/
def ofSigned (row column : Int) (rowFixed columnFixed : Bool) :
    Except CoordinateError Coordinate :=
  if row < 0 then .error (.rowNegative row)
  else if column < 0 then .error (.columnNegative column)
  else make row.toNat column.toNat rowFixed columnFixed

/-- Move by rows and columns, dollar signs or not. -/
def moveBy (c : Coordinate) (rows columns : Int) : Except CoordinateError Coordinate :=
  ofSigned (c.row + rows) (c.column + columns) c.rowFixed c.columnFixed

/-- Move with a formula that is copied `rows` down and `columns` to the right: a fixed axis
stays. -/
def rebase (c : Coordinate) (rows columns : Int) : Except CoordinateError Coordinate :=
  c.moveBy (if c.rowFixed then 0 else rows) (if c.columnFixed then 0 else columns)

/-- One number for all four parts: the row from bit 24, the column from bit 10, the dollar signs
of column and row in the last two bits. -/
def packed (c : Coordinate) : Nat :=
  c.row * 16777216 + c.column * 1024 + c.columnFixed.toNat * 2 + c.rowFixed.toNat

/-- A dollar sign if the axis is fixed. -/
def dollar (fixed : Bool) : List Char := if fixed then ['$'] else []

/-- The coordinate as a formula writes it, such as `$B3`. -/
def chars (c : Coordinate) : List Char :=
  dollar c.columnFixed ++ Column.letters c.column ++ dollar c.rowFixed ++
    Nat.toDigits 10 (c.row + 1)

/-- The coordinate as a formula writes it, as a string. -/
def text (c : Coordinate) : String := String.ofList c.chars

/-- Split off a dollar sign at the front. -/
def takeDollar : List Char → Bool × List Char
  | '$' :: rest => (true, rest)
  | rest => (false, rest)

/-- Read a coordinate: one to three letters in any case and a row number from one, a dollar sign
allowed before each, and nothing else. -/
def read? (text : List Char) : Option Coordinate :=
  let (columnFixed, rest) := takeDollar text
  let letters := rest.takeWhile Char.isAlpha
  let (rowFixed, rest) := takeDollar (rest.dropWhile Char.isAlpha)
  if letters.isEmpty || decide (3 < letters.length) || rest.isEmpty || !rest.all Char.isDigit then
    none
  else
    match Column.ofLetters? (letters.map Char.toUpper), Decimal.ofDigits rest with
    | some column, row + 1 => (make row column rowFixed columnFixed).toOption
    | _, _ => none

end Coordinate

end Spreadsheet
