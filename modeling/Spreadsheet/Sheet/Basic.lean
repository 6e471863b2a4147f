import Spreadsheet.Sheet.Cell
import Std.Data.ExtTreeMap.Lemmas

/-!
# Sheets

A sheet has an extent and holds the cells that are in use. A cell without an entry is blank.
-/
namespace Spreadsheet

/-- A row and a column of a sheet. -/
structure Place where
  row : Nat
  column : Nat
deriving DecidableEq, Repr

namespace Place

/-- Order by row and then by column. -/
def order : Place → Place → Ordering := compareLex (compareOn Place.row) (compareOn Place.column)

instance : Ord Place := ⟨order⟩

instance : Std.TransOrd Place :=
  inferInstanceAs (Std.TransCmp (compareLex (compareOn Place.row) (compareOn Place.column)))

instance : Std.LawfulEqOrd Place where
  eq_of_compare {a b} same := by
    obtain ⟨rows, columns⟩ := Ordering.then_eq_eq.mp same
    cases a
    cases b
    obtain rfl := Std.LawfulEqOrd.eq_of_compare rows
    obtain rfl := Std.LawfulEqOrd.eq_of_compare columns
    rfl

end Place

/-- A sheet of `rows` rows and `columns` columns. -/
structure Sheet where
  rows : Nat
  columns : Nat
  cells : Std.ExtTreeMap Place Cell

namespace Sheet

/-- The sheet without cells. -/
def blank (rows columns : Nat) : Sheet := ⟨rows, columns, ∅⟩

/-- The entry of a row and column. -/
def cell? (s : Sheet) (row column : Nat) : Option Cell := s.cells[Place.mk row column]?

/-- The row and column lie on the sheet. -/
def inBounds (s : Sheet) (row column : Nat) : Bool :=
  decide (row < s.rows) && decide (column < s.columns)

/-- The zone lies on a sheet of this extent. -/
def hasRoomFor (s : Sheet) (z : Zone) : Bool := s.inBounds z.bottom z.right

/-- Change the cell of a row and column, a blank one if it has no entry. -/
def update (s : Sheet) (row column : Nat) (change : Cell → Cell) : Sheet :=
  { s with cells := s.cells.insert ⟨row, column⟩ (change ((s.cell? row column).getD .blank)) }

/-- Drop the entry of a blank cell. -/
def prune (s : Sheet) (row column : Nat) : Sheet :=
  if (s.cell? row column).any Cell.isBlank then { s with cells := s.cells.erase ⟨row, column⟩ }
  else s

/-- Put every cell where `move` says. A cell without a new place is dropped. -/
def relocate (s : Sheet) (move : Place → Option Place) : Sheet :=
  { s with
    cells := .ofList (s.cells.toList.filterMap fun (p, c) => (move p).map fun q => (q, c))
      compare }

/-- Change every formula. -/
def mapFormulas (s : Sheet) (change : Formula → Formula) : Sheet :=
  { s with cells := s.cells.map fun _ c => c.mapFormula change }

/-- The places of formulas and the formulas, in order. -/
def formulas (s : Sheet) : List (Place × Formula) :=
  s.cells.toList.filterMap fun (p, c) => c.formula?.map fun f => (p, f)

/-- The sheet enlarged to hold a row and column. -/
def growTo (s : Sheet) (row column : Nat) : Sheet :=
  { s with rows := max s.rows (row + 1), columns := max s.columns (column + 1) }

end Sheet

end Spreadsheet
