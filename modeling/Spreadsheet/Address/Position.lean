import Std.Data.ExtTreeSet.Lemmas
import Std.Data.ExtTreeMap.Lemmas
import Spreadsheet.Address.Column

/-!
# Positions

A position is one cell of one sheet. Positions are ordered by sheet, then row, then column.
-/
namespace Spreadsheet

/-- The number that identifies a sheet. -/
abbrev SheetId := Nat

/-- One cell of one sheet, rows and columns counted from zero. -/
structure Position where
  sheet : SheetId
  row : Nat
  column : Nat
deriving DecidableEq, Repr, Inhabited

namespace Position

/-- Order by sheet, then row, then column. -/
def order : Position → Position → Ordering :=
  compareLex (compareOn Position.sheet)
    (compareLex (compareOn Position.row) (compareOn Position.column))

instance : Ord Position := ⟨order⟩

instance : Std.TransOrd Position :=
  inferInstanceAs (Std.TransCmp (compareLex (compareOn Position.sheet)
    (compareLex (compareOn Position.row) (compareOn Position.column))))

instance : Std.LawfulEqOrd Position where
  eq_of_compare {a b} same := by
    obtain ⟨sheets, rest⟩ := Ordering.then_eq_eq.mp same
    obtain ⟨rows, columns⟩ := Ordering.then_eq_eq.mp rest
    cases a
    cases b
    obtain rfl := Std.LawfulEqOrd.eq_of_compare sheets
    obtain rfl := Std.LawfulEqOrd.eq_of_compare rows
    obtain rfl := Std.LawfulEqOrd.eq_of_compare columns
    rfl

/-- The position `rows` below and `columns` to the right, if it lies within the numbering. -/
def moveBy? (p : Position) (rows columns : Int) : Option Position :=
  let row := (p.row : Int) + rows
  let column := (p.column : Int) + columns
  if 0 ≤ row ∧ row < indexBound ∧ 0 ≤ column ∧ column < indexBound then
    some ⟨p.sheet, row.toNat, column.toNat⟩
  else none

/-- The name of a cell within its sheet, such as `B3`. -/
def name (p : Position) : String :=
  String.ofList (Column.letters p.column ++ Nat.toDigits 10 (p.row + 1))

end Position

/-- A finite set of positions. -/
abbrev PositionSet := Std.ExtTreeSet Position

/-- A finite map from positions. -/
abbrev PositionMap (α : Type) := Std.ExtTreeMap Position α

/-- The positions in ascending order, each once. -/
def sortedPositions (positions : List Position) : List Position :=
  (Std.ExtTreeSet.ofList positions compare).toList

/-- The positions that are not in `seen`, each where it comes first. -/
def positionsBeyond (seen : PositionSet) : List Position → List Position
  | [] => []
  | p :: rest =>
    if seen.contains p then positionsBeyond seen rest
    else p :: positionsBeyond (seen.insert p) rest

/-- The positions in the order given, each where it comes first. -/
def distinctPositions (positions : List Position) : List Position := positionsBeyond ∅ positions

end Spreadsheet
