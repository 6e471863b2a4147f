import Spreadsheet.Reference.Basic

/-!
# Shifts

A shift inserts rows or columns into a sheet, or deletes a run of them. It says where every row or
column of the sheet ends up, and with that where every reference to the sheet leads.
-/
namespace Spreadsheet

/-- Rows or columns. -/
inductive Direction where
  | rows
  | columns
deriving DecidableEq, Repr

/-- What a shift does. -/
inductive Change where
  | insertion
  | deletion
deriving DecidableEq, Repr

/-- The insertion of `count` rows or columns before index `start`, or the deletion of those from
`start` on. -/
structure Shift where
  change : Change
  direction : Direction
  sheet : SheetId
  start : Nat
  count : Nat
deriving DecidableEq, Repr

/-- The largest index. An index that a shift would move past it stays there. -/
def lastIndex : Nat := indexBound - 1

namespace Shift

/-- The first index behind the run of a shift. -/
def stop (s : Shift) : Nat := min (s.start + s.count) lastIndex

/-- Where an index ends up, if it is not deleted. -/
def mapIndex (s : Shift) (index : Nat) : Option Nat :=
  match s.change with
  | .insertion => some (if s.start ≤ index then min (index + s.count) lastIndex else index)
  | .deletion =>
    if index < s.start then some index
    else if s.stop ≤ index then some (index - s.count)
    else none

/-- Where the indices from `first` to `last` end up. A run that is deleted in part shrinks, one
that is deleted as a whole is gone. -/
def mapRun (s : Shift) (first last : Nat) : Option (Nat × Nat) :=
  match s.change with
  | .insertion => do
    let first ← s.mapIndex first
    let last ← s.mapIndex last
    return (first, last)
  | .deletion =>
    if s.start ≤ first ∧ last < s.stop then none
    else some ((s.mapIndex first).getD s.start, (s.mapIndex last).getD (s.start - 1))

/-- Where the two ends of one axis of a range end up. A missing end at the start stands for index
zero, one at the end for the last index, and both stay missing. -/
def mapEnds (s : Shift) (first last : Option Axis) : Option (Option Axis × Option Axis) :=
  match first, last with
  | none, none => some (none, none)
  | first, last => do
    let run ← s.mapRun ((first.map Axis.index).getD 0) ((last.map Axis.index).getD lastIndex)
    return (first.map fun a => { a with index := run.1 },
      last.map fun a => { a with index := run.2 })

/-- Where a place ends up, given as row and column. -/
def mapPlace (s : Shift) (row column : Nat) : Option (Nat × Nat) :=
  match s.direction with
  | .rows => (s.mapIndex row).map fun row => (row, column)
  | .columns => (s.mapIndex column).map fun column => (row, column)

end Shift

/-- The reference that leads to the same cells after a shift of its sheet, dollar signs or not, if
any of them is left. -/
def Reference.shifted (s : Shift) : Reference → Option Reference
  | .cell sheet c =>
    (s.mapPlace c.row c.column).map fun (row, column) =>
      .cell sheet (.clamp row column c.rowFixed c.columnFixed)
  | .range sheet start stop =>
    match s.direction with
    | .rows =>
      (s.mapEnds start.row stop.row).map fun (first, last) =>
        between sheet { start with row := first } { stop with row := last }
    | .columns =>
      (s.mapEnds start.column stop.column).map fun (first, last) =>
        between sheet { start with column := first } { stop with column := last }

end Spreadsheet
