import Spreadsheet.Workbook.Recalculation

/-!
# Edits

An edit changes a workbook and may be refused. A refusal says what was wrong with the request;
faults of formulas are no refusals, they show in cells. Every edit ends with a recalculation.
-/
namespace Spreadsheet

/-- What lies outside a sheet, or why cells cannot be copied, pasted or deleted. -/
inductive Excess where
  | position (p : Position)
  | zone (z : Zone)
  | line (direction : Direction) (index : Nat)
  | moreLines (direction : Direction) (count : Nat)
  | everyLine (direction : Direction)
  | nothingToCopy
  | severalSheets
  | noTarget
deriving DecidableEq, Repr

/-- What one row or column is called. -/
def Direction.name : Direction → String
  | rows => "row"
  | columns => "column"

namespace Excess

/-- The wording. -/
def message : Excess → String
  | position p => p.name
  | zone z => z.name
  | line direction index => s!"{direction.name} {index + 1}"
  | moreLines direction count => s!"{count} more {direction.name}s"
  | everyLine direction => s!"cannot delete every {direction.name}"
  | nothingToCopy => "nothing to copy"
  | severalSheets => "copied zones must be on one sheet"
  | noTarget => "no paste target"

end Excess

/-- Why an edit is refused. -/
inductive EditError where
  | noSheetNamed (name : String)
  | noSheet (id : SheetId)
  | duplicateSheet (name : String)
  | lastSheet
  | notAfterCut
  | emptyClipboard
  | outOfBounds (what : Excess)
  | invalidReference (text : String)
deriving DecidableEq, Repr

/-- The wording of a refusal. -/
def EditError.message : EditError → String
  | noSheetNamed name => s!"unknown sheet: {name}"
  | noSheet id => s!"unknown sheet: #{id}"
  | duplicateSheet name => s!"a sheet named {name} already exists"
  | lastSheet => "the last sheet cannot be deleted"
  | notAfterCut => "this paste option is not available after a cut"
  | emptyClipboard => "the clipboard is empty"
  | outOfBounds what => s!"out of bounds: {what.message}"
  | invalidReference text => s!"invalid reference: {text}"

/-- A change of a workbook that may be refused on the way. -/
abbrev Edit := ExceptT EditError (StateM Workbook)

namespace Edit

variable {α : Type}

/-- Perform an edit. The workbook is the one left behind, by a refusal too. -/
def perform (edit : Edit α) (w : Workbook) : Except EditError α × Workbook := edit.run w

/-- Look something up in the workbook. -/
def check (look : Workbook → Except EditError α) : Edit α := do
  match look (← get) with
  | .ok a => return a
  | .error e => throw e

/-- Change the workbook without a chance of refusal. -/
def apply (change : Workbook → Workbook) : Edit Unit := modify change

/-- Bring all results up to date. -/
def recalculate : Edit Unit := apply Workbook.recalculate

end Edit

namespace Workbook

variable (w : Workbook)

/-- The sheet of a number, which must exist. -/
def sheet (id : SheetId) : Except EditError Sheet :=
  match w.sheet? id with
  | some s => .ok s
  | none => .error (.noSheet id)

/-- A zone must lie on its sheet. -/
def checkZone (z : Zone) : Except EditError Unit := do
  let s ← w.sheet z.sheet
  if s.hasRoomFor z then return () else throw (.outOfBounds (.zone z))

/-- The zone a typed reference covers, on `home` unless it names another sheet. -/
def zoneOfText (text : String) (home : SheetId) : Except EditError Zone :=
  match Reference.read text.toList with
  | .error _ => .error (.invalidReference text)
  | .ok target =>
    match w.resolve target home with
    | .ok zone => .ok zone
    | .error _ => .error (.invalidReference text)

end Workbook

end Spreadsheet
