import Spreadsheet.Workbook.Edit

/-!
# Content and formats

Content is typed into cells and deleted, and formats are chosen for cells. What a change of one
position makes necessary is marked at once; the recalculation comes when the edit is complete.
-/
namespace Spreadsheet

namespace Workbook

variable (w : Workbook)

/-- Mark what has to know that an anchor gave up a zone: the positions other than the anchor have
changed, and anchors that were blocked around them get another chance. -/
def giveUpZone (anchor : Position) (zone : Zone) : Workbook :=
  let left := zone.positions.filter (· != anchor)
  let blocked := (left.flatMap w.spills.blockedAround).filter (· != anchor)
  (w.markChanged left).markDirty blocked

/-- Release the array of an anchor and mark what has to know. -/
def releaseArray (anchor : Position) : Workbook :=
  let released := { w with spills := w.spills.release anchor }
  match w.spills.activeZone? anchor with
  | some zone => released.giveUpZone anchor zone
  | none => released

/-- Install content at a position. A formula takes the next place in the order of entry. -/
def install (p : Position) (content : Content) : Workbook :=
  match content with
  | .formula f =>
    let f := { f with sequence := w.entered }
    let w := { w with entered := w.entered + 1 }
    let w := w.updateCell p fun c => { c with content := .formula f }
    let w := match f.expr? with
      | some e => { w with dependencies := w.dependencies.record p (w.zonesRead e p.sheet) }
      | none => w
    w.markDirty [p]
  | content => w.updateCell p fun c => { c with content := content }

/-- Replace the content of a position and mark what has to be evaluated: the formula itself, the
readers of the position, the anchor whose array covers it, and anchors that were blocked around
it. -/
def replaceContent (p : Position) (content : Content) : Workbook :=
  let w := w.releaseArray p
  let w := { w with dependencies := w.dependencies.remove p, dirty := w.dirty.erase p }
  let w := (w.install p content).markChanged [p]
  w.markDirty (((w.spills.owner? p).toList ++ w.spills.blockedAround p).filter (· != p))

/-- Choose a format for a position. -/
def chooseFormat (p : Position) (format : Option String) : Workbook :=
  if ((w.cell? p).bind Cell.format) = format then w
  else (w.updateCell p fun c => { c with format := format }).markChanged [p]

end Workbook

namespace Edit

/-- Type a text into a cell. -/
def setContent (sheet : SheetId) (row column : Nat) (text : String) : Edit Unit := do
  let s ← check (·.sheet sheet)
  let p : Position := ⟨sheet, row, column⟩
  if s.inBounds row column then
    apply (·.replaceContent p (.ofText text))
    recalculate
  else throw (.outOfBounds (.position p))

/-- Delete the content of zones. Formats stay. -/
def deleteContent (zones : List Zone) : Edit Unit := do
  zones.forM fun z => check (·.checkZone z)
  apply fun w => (zones.flatMap Zone.positions).foldl
    (fun w p => if w.hasContent p then w.replaceContent p .empty else w) w
  recalculate

/-- Choose a format for zones, or none. -/
def setFormat (zones : List Zone) (format : Option String) : Edit Unit := do
  zones.forM fun z => check (·.checkZone z)
  apply fun w => (zones.flatMap Zone.positions).foldl (fun w p => w.chooseFormat p format) w
  recalculate

/-- Evaluate the formulas among the positions again. -/
def reevaluate (positions : List Position) : Edit Unit := do
  apply fun w => w.markDirty (positions.filter w.isFormula)
  recalculate

end Edit

end Spreadsheet
