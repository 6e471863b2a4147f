import Spreadsheet.Address.Coordinate
import Spreadsheet.Address.Zone

/-!
# References

A reference names a cell or a range, on its own sheet or on a named one. Either axis of a corner
of a range may be left out: `A:B` are whole columns, `1:2` whole rows, and `A1:A` runs to the last
row. What is left out is supplied when the reference is resolved.
-/
namespace Spreadsheet

/-- One axis of a corner: an index and whether a dollar sign fixes it. -/
structure Axis where
  index : Nat
  fixed : Bool
deriving DecidableEq, Repr

/-- A corner of a range. -/
structure Corner where
  row : Option Axis
  column : Option Axis
deriving DecidableEq, Repr

/-- A cell or a range, on a named sheet or on the sheet of the formula. -/
inductive Reference where
  | cell (sheet : Option String) (coordinate : Coordinate)
  | range (sheet : Option String) (start stop : Corner)
deriving DecidableEq, Repr

namespace Corner

/-- The corner at a coordinate. -/
def ofCoordinate (c : Coordinate) : Corner :=
  ⟨some ⟨c.row, c.rowFixed⟩, some ⟨c.column, c.columnFixed⟩⟩

/-- Neither axis is given. -/
def isBare (c : Corner) : Bool := c.row.isNone && c.column.isNone

end Corner

/-- Two axes with the smaller index first, each with its dollar sign. An axis that is left out
stays where it is. -/
def orderAxes (first second : Option Axis) : Option Axis × Option Axis :=
  match first, second with
  | some a, some b => if b.index < a.index then (some b, some a) else (some a, some b)
  | a, b => (a, b)

namespace Reference

/-- The range between two corners, rows and columns ordered independently: `$C2:E$1` is
`$C$1:E2`. -/
def between (sheet : Option String) (corner other : Corner) : Reference :=
  let rows := orderAxes corner.row other.row
  let columns := orderAxes corner.column other.column
  .range sheet ⟨rows.1, columns.1⟩ ⟨rows.2, columns.2⟩

/-- The sheet a reference names. -/
def sheet : Reference → Option String
  | .cell sheet _ => sheet
  | .range sheet _ _ => sheet

/-- The reference on another sheet. -/
def withSheet (sheet : Option String) : Reference → Reference
  | .cell _ coordinate => .cell sheet coordinate
  | .range _ start stop => .range sheet start stop

/-- The zone a reference covers on a sheet of the given extent. A missing axis at the start is
the first row or column, one at the end the last of the sheet. -/
def zone (id : SheetId) (rows columns : Nat) : Reference → Zone
  | .cell _ c => .single ⟨id, c.row, c.column⟩
  | .range _ start stop =>
    .span id ((start.row.map Axis.index).getD 0) ((start.column.map Axis.index).getD 0)
      ((stop.row.map Axis.index).getD (rows - 1))
      ((stop.column.map Axis.index).getD (columns - 1))

/-- The zone of a reference that gives every axis. -/
def boundedZone? (id : SheetId) : Reference → Option Zone
  | .cell _ c => some (.single ⟨id, c.row, c.column⟩)
  | .range _ ⟨some top, some left⟩ ⟨some bottom, some right⟩ =>
    some (.span id top.index left.index bottom.index right.index)
  | .range _ _ _ => none

end Reference

end Spreadsheet
