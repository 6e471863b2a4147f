import Spreadsheet.Workbook.Sheets

/-!
# Inserting and deleting rows and columns

Rows and columns are inserted before an index, and any set of them can be deleted as long as one
is left. Cells move, and every reference to the sheet follows the cells it leads to.
-/
namespace Spreadsheet

/-- The number of rows or columns. -/
def Sheet.lines (s : Sheet) : Direction → Nat
  | .rows => s.rows
  | .columns => s.columns

/-- The runs of consecutive numbers in an ascending list, as first number and length. -/
def ascendingRuns : List Nat → List (Nat × Nat)
  | [] => []
  | i :: rest =>
    match ascendingRuns rest with
    | (start, count) :: runs =>
      if i + 1 = start then (i, count + 1) :: runs else (i, 1) :: (start, count) :: runs
    | [] => [(i, 1)]

/-- The given numbers in ascending order, each once. -/
def distinctIndices (indices : List Nat) : List Nat :=
  (Std.ExtTreeSet.ofList indices compare).toList

/-- The runs of consecutive numbers among the given ones, the highest first. -/
def descendingRuns (indices : List Nat) : List (Nat × Nat) :=
  (ascendingRuns (distinctIndices indices)).reverse

namespace Workbook

variable (w : Workbook)

/-- The extent of a sheet after a shift. -/
def resized (s : Shift) (sheet : Sheet) : Sheet :=
  let change (lines : Nat) : Nat := match s.change with
    | .insertion => lines + s.count
    | .deletion => lines - s.count
  match s.direction with
  | .rows => { sheet with rows := change sheet.rows }
  | .columns => { sheet with columns := change sheet.columns }

/-- Apply a shift to one sheet: its cells move and its extent changes. -/
def moveCells (s : Shift) (sheet : Sheet) : Sheet :=
  resized s (sheet.relocate fun p =>
    (s.mapPlace p.row p.column).map fun (row, column) => ⟨row, column⟩)

/-- The redirection of formulas that a shift asks for. -/
def shiftRedirection (s : Shift) (home : SheetId) (e : Expr) : Option Expr :=
  e.shift? (fun qualifier => w.registry.resolve qualifier home) s

/-- Apply a shift to the cells of its sheet and to all formulas. The formulas on other sheets that
change are marked. -/
def applyShift (s : Shift) : Workbook :=
  let w := w.updateSheet s.sheet (moveCells s)
  let redirected := (w.redirected (w.shiftRedirection s)).filter (·.sheet != s.sheet)
  (w.redirectFormulas (w.shiftRedirection s)).markDirty redirected

/-- Apply shifts of one sheet, one after the other, and mark every formula on the sheet or with a
reference to it. A cut that a shift reaches is off. -/
def restructure (sheet : SheetId) (shifts : List Shift) : Workbook :=
  let w := { w with
    clipboard := w.clipboard.filter fun c => !shifts.any fun s => c.isEndedBy s }
  let w := (shifts.foldl applyShift (w.forgetResults sheet)).rebuildDependencies
  w.markDirty (w.formulaPositions.filter fun p => p.sheet == sheet || w.mentionsSheet p sheet)

end Workbook

namespace Edit

/-- Insert `count` rows or columns before an index, which may be that behind the last. -/
def insertLines (direction : Direction) (sheet : SheetId) (index count : Nat) : Edit Unit := do
  let s ← check (·.sheet sheet)
  if s.lines direction < index then throw (.outOfBounds (.line direction index))
  if indexBound ≤ s.lines direction + count then
    throw (.outOfBounds (.moreLines direction count))
  if 0 < count then
    apply (·.restructure sheet [⟨.insertion, direction, sheet, index, count⟩])
    recalculate

/-- Delete rows or columns, given in any order and possibly more than once. -/
def deleteLines (direction : Direction) (sheet : SheetId) (indices : List Nat) : Edit Unit := do
  let s ← check (·.sheet sheet)
  match indices.find? fun i => decide (s.lines direction ≤ i) with
  | some i => throw (.outOfBounds (.line direction i))
  | none =>
    let runs := descendingRuns indices
    if s.lines direction ≤ (distinctIndices indices).length then
      throw (.outOfBounds (.everyLine direction))
    unless runs.isEmpty do
      apply (·.restructure sheet (runs.map fun (start, count) =>
        ⟨.deletion, direction, sheet, start, count⟩))
      recalculate

end Edit

end Spreadsheet
