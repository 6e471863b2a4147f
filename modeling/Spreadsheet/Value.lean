import Spreadsheet.CellError
import Spreadsheet.Decimal.Text

/-!
# Values

What a cell shows and what a formula computes with. An array is a list of rows.
-/
namespace Spreadsheet

/-- Rows of entries. -/
abbrev Grid (α : Type) := List (List α)

namespace Grid

variable {α : Type}

/-- The number of rows and the length of the first row. -/
def extent (grid : Grid α) : Nat × Nat := (grid.length, (grid.head?.map List.length).getD 0)

/-- The entry of a row and column, if there is one. -/
def at? (grid : Grid α) (row column : Nat) : Option α :=
  grid[row]?.bind fun entries => entries[column]?

/-- The grid with a given extent and entries given by row and column. -/
def build (rows columns : Nat) (entry : Nat → Nat → α) : Grid α :=
  (List.range rows).map fun row => (List.range columns).map fun column => entry row column

/-- Swap rows and columns, as many of them as the first row has entries. -/
def transpose (grid : Grid α) : Grid α :=
  (List.range grid.extent.2).map fun column => grid.filterMap fun row => row[column]?

/-- The first entry of the first row. -/
def first? (grid : Grid α) : Option α := grid.head?.bind List.head?

/-- The only entry of a grid of one row with one entry. -/
def only? : Grid α → Option α
  | [[entry]] => some entry
  | _ => none

end Grid

/-- A value of a cell or of a part of a formula. -/
inductive Value where
  | empty
  | number (x : Number)
  | integer (n : Int)
  | text (content : String)
  | boolean (b : Bool)
  | array (rows : List (List Value))
  | error (e : CellError)
deriving Inhabited

namespace Value

mutual

/-- The values are equal, numbers by their value: zero has one value and not-a-number none. -/
def same : Value → Value → Bool
  | .empty, .empty => true
  | .number x, .number y => x.toFloat == y.toFloat
  | .integer m, .integer n => m == n
  | .text a, .text b => a == b
  | .boolean a, .boolean b => a == b
  | .array rows, .array otherRows => sameRows rows otherRows
  | .error e, .error f => e == f
  | _, _ => false

/-- The lists hold equal values in order. -/
def sameRow : List Value → List Value → Bool
  | [], [] => true
  | v :: row, w :: otherRow => v.same w && sameRow row otherRow
  | _, _ => false

/-- The grids hold equal values at equal places. -/
def sameRows : List (List Value) → List (List Value) → Bool
  | [], [] => true
  | row :: rows, otherRow :: otherRows => sameRow row otherRow && sameRows rows otherRows
  | _, _ => false

end

/-- The number of an integer value. -/
def ofInteger (n : Int) : Float := Float.ofInt n

/-- The text of a value on its own. The text of an array, a dump of its entries that no cell shows,
is left out: it is empty here. -/
def display : Value → String
  | .empty => ""
  | .number x => Decimal.text x
  | .integer n => toString n
  | .text content => content
  | .boolean b => if b then "TRUE" else "FALSE"
  | .array _ => ""
  | .error e => e.kind.code

/-- The extent of a value; everything but an array has one row and one column. -/
def extent : Value → Nat × Nat
  | .array rows => Grid.extent rows
  | _ => (1, 1)

/-- The single value of a value, or the extent of an array that is too large to be one. An array
of one entry is that entry and an array without entries is empty. -/
def single? : Value → Except (Nat × Nat) Value
  | .array [[v]] => .ok v
  | .array [] => .ok .empty
  | .array ([] :: _) => .ok .empty
  | .array rows => .error (Grid.extent rows)
  | v => .ok v

/-- A larger array where there should be a single value, in words. -/
def extentReport (extent : Nat × Nat) : String :=
  s!"Expected a single value, got a {extent.1}x{extent.2} matrix"

/-- The number of a number, an integer or a boolean. -/
def serial? : Value → Option Float
  | .number x => some x.toFloat
  | .integer n => some (ofInteger n)
  | .boolean b => some (if b then 1 else 0)
  | _ => none

/-- The value counts as true: a true boolean, a number other than zero, a text with characters,
an array with rows. -/
def isTruthy : Value → Bool
  | .boolean b => b
  | .integer n => n != 0
  | .number x => x.toFloat != 0
  | .text content => content != ""
  | .array rows => !rows.isEmpty
  | .error _ => false
  | .empty => false

/-- The value is empty. -/
def isEmpty : Value → Bool
  | .empty => true
  | _ => false

/-- An empty result counts as the number zero. -/
def orZero : Value → Value
  | .empty => .number 0
  | v => v

/-- The number of a value, or an error if the result is no finite number. -/
def ofResult (x : Float) : Value :=
  if x.isFinite then .number (.ofFloat x) else .error (.plain .number)

/-- The value of typed content that is no formula: a finite number, a boolean, the code of an
error, or the text itself. -/
def ofTyped (typed : String) : Value :=
  let trimmed := Text.trimmed typed
  match (Decimal.read? trimmed.toList).filter Number.isFinite with
  | some x => .number x
  | none =>
    if Text.sameIgnoringCase trimmed "TRUE" then .boolean true
    else if Text.sameIgnoringCase trimmed "FALSE" then .boolean false
    else
      match ErrorKind.ofCode? trimmed with
      | some kind => .error (.plain kind)
      | none => .text typed

end Value

end Spreadsheet
