import Spreadsheet.Redirection.References
import Spreadsheet.Workbook.Edit

/-!
# Adding and deleting sheets

A formula may name a sheet before it exists: the reference leads somewhere as soon as the sheet is
added. When a sheet is deleted, references to it are lost for good.
-/
namespace Spreadsheet

namespace Workbook

variable (w : Workbook)

/-- Put a blank sheet under the next number. -/
def insertSheet (name : String) (rows columns : Nat) : Workbook :=
  { w with
    registry := w.registry.add name
    sheets := w.sheets.insert w.registry.nextId (.blank rows columns) }

/-- Mark the formulas that have a reference to a sheet. -/
def markMentions (id : SheetId) : Workbook :=
  w.markDirty (w.formulaPositions.filter fun p => w.mentionsSheet p id)

/-- Nothing of a sheet is left to be evaluated, and none of its arrays is spilled. -/
def forgetResults (id : SheetId) : Workbook :=
  { w with
    spills := w.spills.clearSheet id
    dirty := w.dirty.filter (·.sheet != id)
    changed := w.changed.filter (·.sheet != id) }

/-- Take a sheet away. The first sheet left becomes the default one in its place. -/
def eraseSheet (id : SheetId) : Workbook :=
  let registry := w.registry.remove id
  let w := { w with registry := registry, sheets := w.sheets.erase id }
  let w := w.forgetResults id
  { w with
    clipboard := w.clipboard.filter fun c => c.sheet != id
    defaultSheet :=
      if w.defaultSheet = id then (registry.liveIds.head?).getD w.defaultSheet
      else w.defaultSheet }

/-- Redirect the references of formulas and mark those that change. -/
def redirectAndMark (redirect : SheetId → Expr → Option Expr) : Workbook :=
  let redirected := w.redirected redirect
  ((w.redirectFormulas redirect).rebuildDependencies).markDirty redirected

end Workbook

namespace Edit

/-- Add a sheet. The result is its number. -/
def addSheet (name : String) (rows columns : Nat) : Edit SheetId := do
  let w ← get
  if (w.registry.id? name).isSome then throw (.duplicateSheet name)
  let id := w.registry.nextId
  apply fun w => ((w.insertSheet name rows columns).rebuildDependencies).markMentions id
  recalculate
  return id

/-- Delete a sheet. References to it become errors. -/
def deleteSheet (name : String) : Edit Unit := do
  let w ← get
  match w.registry.id? name with
  | none => throw (.noSheetNamed name)
  | some id =>
    if w.registry.liveIds.length ≤ 1 then throw .lastSheet
    let known := (w.registry.name? id).getD name
    apply fun w => (w.eraseSheet id).redirectAndMark fun _ e => e.invalidate? known
    recalculate

end Edit

end Spreadsheet
