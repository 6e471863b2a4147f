import Spreadsheet.Formula.Printer
import Spreadsheet.Redirection.Shift

/-!
# Redirecting the references of formulas

Shifts, copies and moves change the references of a formula and nothing else. A reference that no
longer leads anywhere becomes an error. Each redirection gives no formula when it changes nothing.
-/
namespace Spreadsheet

/-- What becomes of one reference. -/
inductive Fate where
  | stays
  | becomes (target : Reference)
  | isLost
deriving DecidableEq, Repr

namespace Fate

/-- A reference becomes another one or is lost. -/
def ofTarget? : Option Reference → Fate
  | some target => becomes target
  | none => isLost

/-- The reference does not stay what it is. -/
def changes (target : Reference) : Fate → Bool
  | stays => false
  | becomes new => new != target
  | isLost => true

/-- The node in place of that of a reference. Only a reference that changes loses its spelling. -/
def node (target : Reference) (spelling : String) (span : Option Span) : Fate → Expr
  | stays => .reference target spelling span
  | becomes new =>
    if new = target then .reference target spelling span else .reference new new.text span
  | isLost => .literal (.error .invalidReference) span

end Fate

/-- The formula with every reference changed as `fate` says, if any changes. -/
def Expr.redirect? (fate : Reference → Fate) (e : Expr) : Option Expr :=
  if e.references.any fun target => (fate target).changes target then
    some (e.mapReferences fun target spelling span => (fate target).node target spelling span)
  else none

/-- The index moved by a number of rows or columns, if it stays within the numbering. -/
def Axis.moveBy? (a : Axis) (distance : Int) : Option Axis :=
  let index := (a.index : Int) + distance
  if 0 ≤ index ∧ index < indexBound then some { a with index := index.toNat } else none

namespace Corner

/-- Move both axes with `move`, which gets an axis and how far it has to go. -/
def move? (move : Axis → Int → Option Axis) (c : Corner) (rows columns : Int) : Option Corner := do
  let row ← c.row.mapM (move · rows)
  let column ← c.column.mapM (move · columns)
  return ⟨row, column⟩

/-- The axes that are given lie within an extent. -/
def isWithin (c : Corner) (extent : Nat × Nat) : Bool :=
  c.row.all (fun a => decide (a.index < extent.1)) &&
    c.column.all (fun a => decide (a.index < extent.2))

end Corner

namespace Reference

/-- The reference lies within an extent. -/
def isWithin (target : Reference) (extent : Nat × Nat) : Bool :=
  match target with
  | .cell _ c => decide (c.row < extent.1) && decide (c.column < extent.2)
  | .range _ start stop => start.isWithin extent && stop.isWithin extent

/-- The reference in a formula that is copied `rows` down and `columns` to the right: an axis with
a dollar sign stays. -/
def copied (rows columns : Int) : Reference → Option Reference
  | .cell sheet c => (c.rebase rows columns).toOption.map (.cell sheet)
  | .range sheet start stop => do
    let move (a : Axis) (distance : Int) : Option Axis :=
      if a.fixed then some a else a.moveBy? distance
    let start ← start.move? move rows columns
    let stop ← stop.move? move rows columns
    return between sheet start stop

/-- The reference to cells that are moved `rows` down and `columns` to the right, dollar signs or
not. -/
def moved (rows columns : Int) (sheet : Option String) : Reference → Option Reference
  | .cell _ c => (c.moveBy rows columns).toOption.map (.cell sheet)
  | .range _ start stop => do
    let start ← start.move? Axis.moveBy? rows columns
    let stop ← stop.move? Axis.moveBy? rows columns
    return between sheet start stop

end Reference

namespace Expr

/-- The formula after a shift; `sheetOf` finds the sheet of a qualifier. -/
def shift? (sheetOf : Option String → Option SheetId) (s : Shift) (e : Expr) : Option Expr :=
  e.redirect? fun target =>
    if sheetOf target.sheet = some s.sheet then .ofTarget? (target.shifted s) else .stays

/-- The formula copied `rows` down and `columns` to the right. A reference must stay within the
extent of its sheet, where `extentOf` knows it. -/
def offset? (extentOf : Option String → Option (Nat × Nat)) (rows columns : Int) (e : Expr) :
    Option Expr :=
  if rows = 0 ∧ columns = 0 then none
  else
    e.redirect? fun target =>
      .ofTarget? ((target.copied rows columns).filter fun new =>
        (extentOf target.sheet).all new.isWithin)

/-- The formula after the cells of a zone have moved `rows` down and `columns` to the right, to
the sheet `destination`. References that lie in the zone as a whole follow. They name the sheet if
they did before or if the formula is on another one, `home`. -/
def move? (sheetOf : Option String → Option SheetId) (source : Zone) (rows columns : Int)
    (destination : SheetId) (name : String) (home : SheetId) (e : Expr) : Option Expr :=
  e.redirect? fun target =>
    match (sheetOf target.sheet).bind target.boundedZone? with
    | none => .stays
    | some zone =>
      if source.containsZone zone then
        let named := target.sheet.isSome || destination != home
        .ofTarget? (target.moved rows columns (if named then some name else none))
      else .stays

/-- The formula after the sheet of a name is gone. -/
def invalidate? (name : String) (e : Expr) : Option Expr :=
  e.redirect? fun target =>
    if target.sheet.any (Text.sameIgnoringCase · name) then .isLost else .stays

end Expr

end Spreadsheet
