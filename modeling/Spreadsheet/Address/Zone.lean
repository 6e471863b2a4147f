import Spreadsheet.Address.Position

/-!
# Zones

A zone is a rectangle of positions on one sheet, never empty.
-/
namespace Spreadsheet

/-- A rectangle of positions on one sheet, its borders included. -/
structure Zone where
  sheet : SheetId
  top : Nat
  left : Nat
  bottom : Nat
  right : Nat
  top_le_bottom : top ≤ bottom := by omega
  left_le_right : left ≤ right := by omega
deriving DecidableEq, Repr

namespace Zone

/-- The zone spanned by two opposite corners, in any order. -/
def span (sheet : SheetId) (row column otherRow otherColumn : Nat) : Zone where
  sheet := sheet
  top := min row otherRow
  left := min column otherColumn
  bottom := max row otherRow
  right := max column otherColumn

/-- The zone of one position. -/
def single (p : Position) : Zone := span p.sheet p.row p.column p.row p.column

/-- The zone of `rows` rows and `columns` columns below and to the right of an anchor. A missing
extent counts as one. The last row and column are to stay below `indexBound`: indices have 32 bits,
and here they do not wrap around. -/
def fromAnchor (anchor : Position) (rows columns : Nat) : Zone where
  sheet := anchor.sheet
  top := anchor.row
  left := anchor.column
  bottom := anchor.row + (rows - 1)
  right := anchor.column + (columns - 1)

/-- The first position of a zone. -/
def topLeft (z : Zone) : Position := ⟨z.sheet, z.top, z.left⟩

/-- The last position of a zone. -/
def bottomRight (z : Zone) : Position := ⟨z.sheet, z.bottom, z.right⟩

/-- The number of rows. -/
def rows (z : Zone) : Nat := z.bottom - z.top + 1

/-- The number of columns. -/
def columns (z : Zone) : Nat := z.right - z.left + 1

/-- The zone has one position. -/
def isSingle (z : Zone) : Bool := z.top == z.bottom && z.left == z.right

/-- The position lies in the zone. -/
def contains (z : Zone) (p : Position) : Bool :=
  p.sheet == z.sheet && decide (z.top ≤ p.row) && decide (p.row ≤ z.bottom) &&
    decide (z.left ≤ p.column) && decide (p.column ≤ z.right)

/-- The borders of the inner zone lie within those of the outer. -/
def containsZone (outer inner : Zone) : Bool :=
  inner.sheet == outer.sheet && decide (outer.top ≤ inner.top) &&
    decide (inner.bottom ≤ outer.bottom) && decide (outer.left ≤ inner.left) &&
    decide (inner.right ≤ outer.right)

/-- The row intervals and the column intervals of two zones of one sheet overlap. -/
def intersects (z other : Zone) : Bool :=
  z.sheet == other.sheet && decide (z.top ≤ other.bottom) && decide (other.top ≤ z.bottom) &&
    decide (z.left ≤ other.right) && decide (other.left ≤ z.right)

/-- The positions of a zone, row by row. -/
def positions (z : Zone) : List Position :=
  (List.range' z.top z.rows).flatMap fun row =>
    (List.range' z.left z.columns).map fun column => ⟨z.sheet, row, column⟩

/-- The zone `rows` below and `columns` to the right, if its first position lies within the
numbering. -/
def moveBy? (z : Zone) (rows columns : Int) : Option Zone :=
  (z.topLeft.moveBy? rows columns).map fun anchor => fromAnchor anchor z.rows z.columns

/-- The name of a zone within its sheet, such as `B3` or `B3:C5`. -/
def name (z : Zone) : String :=
  if z.isSingle then z.topLeft.name else z.topLeft.name ++ ":" ++ z.bottomRight.name

/-- Order by sheet and then by the borders top, left, bottom and right. -/
def order : Zone → Zone → Ordering :=
  compareLex (compareOn Zone.sheet) (compareLex (compareOn Zone.top) (compareLex
    (compareOn Zone.left) (compareLex (compareOn Zone.bottom) (compareOn Zone.right))))

instance : Ord Zone := ⟨order⟩

instance : Std.TransOrd Zone :=
  inferInstanceAs (Std.TransCmp (compareLex (compareOn Zone.sheet) (compareLex
    (compareOn Zone.top) (compareLex (compareOn Zone.left) (compareLex (compareOn Zone.bottom)
      (compareOn Zone.right))))))

instance : Std.LawfulEqOrd Zone where
  eq_of_compare {a b} same := by
    obtain ⟨sheets, rest⟩ := Ordering.then_eq_eq.mp same
    obtain ⟨tops, rest⟩ := Ordering.then_eq_eq.mp rest
    obtain ⟨lefts, rest⟩ := Ordering.then_eq_eq.mp rest
    obtain ⟨bottoms, rights⟩ := Ordering.then_eq_eq.mp rest
    cases a
    cases b
    obtain rfl := Std.LawfulEqOrd.eq_of_compare sheets
    obtain rfl := Std.LawfulEqOrd.eq_of_compare tops
    obtain rfl := Std.LawfulEqOrd.eq_of_compare lefts
    obtain rfl := Std.LawfulEqOrd.eq_of_compare bottoms
    obtain rfl := Std.LawfulEqOrd.eq_of_compare rights
    rfl

end Zone

/-- The zones in ascending order, each once. -/
def sortedZones (zones : List Zone) : List Zone :=
  (Std.ExtTreeSet.ofList zones compare).toList

end Spreadsheet
