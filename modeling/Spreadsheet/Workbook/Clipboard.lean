import Spreadsheet.Workbook.Content
import Spreadsheet.Workbook.Sheets

/-!
# Copy, cut and paste

A copied formula keeps its relative references relative. A cut moves cells: formulas keep their
references, and references to the cells follow them. Sheets grow to hold what is pasted.
-/
namespace Spreadsheet

namespace Workbook

variable (w : Workbook)

/-- What a clip keeps of a position, counted from the first position of `bounds`. -/
def clipCell (bounds : Zone) (p : Position) : ClipCell where
  row := p.row - bounds.top
  column := p.column - bounds.left
  content := ((w.cell? p).map Cell.content).getD .empty
  format := (w.cell? p).bind Cell.format
  value := w.value p
  shownFormat := w.format p

/-- Each zone must lie on its sheet, and all on the same one. -/
def checkCopied (sheet : SheetId) : List Zone → Except EditError Unit
  | [] => .ok ()
  | z :: rest => do
    w.checkZone z
    if z.sheet = sheet then checkCopied sheet rest else throw (.outOfBounds .severalSheets)

/-- Copy the cells of zones, each once, zone by zone and row by row. -/
def copyCells (zones : List Zone) : Except EditError Clip :=
  match zones with
  | [] => .error (.outOfBounds .nothingToCopy)
  | z :: rest => do
    let bounds := z.hull rest
    w.checkCopied z.sheet zones
    return {
      origin := bounds.topLeft
      rows := bounds.rows
      columns := bounds.columns
      cells := (distinctPositions (zones.flatMap Zone.positions)).map (w.clipCell bounds) }

/-- Enlarge a sheet to hold a position. The formulas on it are marked, because arrays may find
room now. -/
def growTo (p : Position) : Workbook :=
  if (w.sheet? p.sheet).any fun s => s.inBounds p.row p.column then w
  else
    (w.updateSheet p.sheet (·.growTo p.row p.column)).markDirty
      (w.formulaPositions.filter (·.sheet == p.sheet))

/-- The extent of the sheet that a qualifier leads to. -/
def extentOf (home : SheetId) (qualifier : Option String) : Option (Nat × Nat) :=
  ((w.registry.resolve qualifier home).bind w.sheet?).map fun s => (s.rows, s.columns)

/-- A formula copied from one position to another. -/
def copiedFormula (f : Formula) (source target : Position) : Formula :=
  let rows := (target.row : Int) - source.row
  let columns := (target.column : Int) - source.column
  let f := f.cleared
  match f.expr?.bind (·.offset? (w.extentOf target.sheet) rows columns) with
  | some e => f.withExpr e
  | none => f

/-- Copied content as it is pasted at another position. -/
def copiedContent (content : Content) (source target : Position) : Content :=
  match content with
  | .formula f => .formula (w.copiedFormula f source target)
  | content => content

/-- A value as typed content. -/
def contentOfValue : Value → Content
  | .empty => .empty
  | v => .literal v.display v

/-- Paste a copied cell at a position. -/
def pasteCell (cell : ClipCell) (source target : Position) : PasteMode → Workbook
  | .everything =>
    (w.replaceContent target (w.copiedContent cell.content source target)).chooseFormat target
      cell.format
  | .value => w.replaceContent target (contentOfValue cell.value)
  | .format => w.chooseFormat target cell.shownFormat

/-- Clear a cell, its content and its format. -/
def clearCell (p : Position) : Workbook :=
  if (w.cell? p).isSome then (w.replaceContent p .empty).chooseFormat p none else w

/-- The redirection of formulas when the cells of a zone move to another anchor; `home` is the sheet
of the formula and `newHome` the one it will be on. -/
def moveRedirection (source : Zone) (anchor : Position) (home newHome : SheetId) (e : Expr) :
    Option Expr :=
  e.move? (fun qualifier => w.registry.resolve qualifier home) source
    ((anchor.row : Int) - source.top) ((anchor.column : Int) - source.left) anchor.sheet
    ((w.registry.name? anchor.sheet).getD "") newHome

/-- Cut content as it is pasted. -/
def movedContent (source : Zone) (anchor : Position) (content : Content) : Content :=
  match content with
  | .formula f =>
    let f := f.cleared
    match f.expr?.bind (w.moveRedirection source anchor source.sheet anchor.sheet) with
    | some e => .formula (f.withExpr e)
    | none => .formula f
  | content => content

/-- Put a cut cell at its new position. -/
def placeCell (source : Zone) (anchor : Position) (cell : ClipCell) (p : Position) : Workbook :=
  (w.replaceContent p (w.movedContent source anchor cell.content)).chooseFormat p cell.format

end Workbook

/-- The position of a copied cell when the origin of the clip is at an anchor. -/
def ClipCell.placed (cell : ClipCell) (anchor : Position) : Position :=
  ⟨anchor.sheet, anchor.row + cell.row, anchor.column + cell.column⟩

namespace Edit

/-- Make room for a position. -/
def ensureRoom (p : Position) : Edit Unit := do
  let _ ← check (·.sheet p.sheet)
  apply (·.growTo p)

/-- The positions at which a clip is pasted into a zone: a single cell fills it, anything larger
is pasted once. -/
def anchors (clip : Clip) (target : Zone) : List Position :=
  if clip.rows = 1 ∧ clip.columns = 1 then target.positions else [target.topLeft]

/-- Paste a clip into zones. -/
def pasteCells (clip : Clip) (targets : List Zone) (mode : PasteMode) : Edit Unit := do
  targets.forM fun z => do
    let _ ← check (·.sheet z.sheet)
  (targets.flatMap (anchors clip)).forM fun anchor =>
    clip.cells.forM fun cell => do
      let source := cell.placed clip.origin
      let target := cell.placed anchor
      ensureRoom target
      apply (·.pasteCell cell source target mode)
  recalculate

/-- Move the cells of zones to the first position of the first target. -/
def pasteCut (zones targets : List Zone) : Edit Unit := do
  match targets with
  | [] => throw (.outOfBounds .noTarget)
  | target :: _ =>
    let _ ← check (·.sheet target.sheet)
    let clip ← check (·.copyCells zones)
    let source := Zone.fromAnchor clip.origin clip.rows clip.columns
    let anchor := target.topLeft
    apply fun w => clip.cells.foldl (fun w cell => w.clearCell (cell.placed clip.origin)) w
    let w ← get
    let follow (home : SheetId) : Expr → Option Expr := w.moveRedirection source anchor home home
    let redirected := w.redirected follow
    apply (·.redirectFormulas follow)
    clip.cells.forM fun cell => do
      ensureRoom (cell.placed anchor)
      apply fun w => w.placeCell source anchor cell (cell.placed anchor)
    apply fun w => { w.rebuildDependencies.markDirty redirected with clipboard := none }
    recalculate

/-- Copy zones of one sheet. -/
def copy (zones : List Zone) : Edit Unit := do
  let clip ← check (·.copyCells zones)
  apply fun w => { w with clipboard := some (.copied clip) }

/-- Cut zones of one sheet. -/
def cut (zones : List Zone) : Edit Unit := do
  let _ ← check (·.copyCells zones)
  apply fun w => { w with clipboard := some (.cut zones) }

/-- Paste what was copied or cut. What was cut can only be pasted as a whole, and once. -/
def paste (targets : List Zone) (mode : PasteMode) : Edit Unit := do
  let w ← get
  match w.clipboard with
  | none => throw .emptyClipboard
  | some (.copied clip) => pasteCells clip targets mode
  | some (.cut zones) =>
    if mode = .everything then pasteCut zones targets else throw .notAfterCut

end Edit

end Spreadsheet
