import Spreadsheet.Evaluation.Basic
import Spreadsheet.Function.Library
import Spreadsheet.NumberFormat
import Spreadsheet.Recalculation.Dependencies
import Spreadsheet.Recalculation.Spills
import Spreadsheet.Sheet.Basic
import Spreadsheet.Sheet.Registry
import Spreadsheet.Workbook.Clip

/-!
# Workbooks

A workbook holds sheets and what is needed to keep the results of their formulas up to date: which
formulas read what, which arrays are spilled, which formulas are to be evaluated, and which
positions have changed since their readers were.
-/
namespace Spreadsheet

/-- How a workbook starts, and how many rounds a recalculation may take after the first. -/
structure Settings where
  rows : Nat
  columns : Nat
  rounds : Nat
  sheetName : String
deriving DecidableEq, Repr

namespace Settings

/-- The usual settings. -/
def standard : Settings := ⟨100, 26, 30, "Sheet1"⟩

end Settings

/-- An evaluation of a formula and the functions it called. -/
structure JournalEntry where
  formula : Position
  calls : List String
deriving DecidableEq, Repr

/-- A workbook. -/
structure Workbook where
  settings : Settings
  registry : Registry
  sheets : Std.ExtTreeMap SheetId Sheet
  defaultSheet : SheetId
  dependencies : Dependencies
  spills : Spills
  /-- Formulas to be evaluated. -/
  dirty : PositionSet
  /-- Positions whose value or format changed; their readers are to be evaluated. -/
  changed : PositionSet
  functions : FunctionTable
  clipboard : Option Clipboard
  /-- The number of formulas that have been entered. -/
  entered : Nat
  /-- The evaluations so far, the latest first. -/
  journal : List JournalEntry

namespace Workbook

/-- A new workbook of one blank sheet. -/
def new (settings : Settings) (functions : FunctionTable) : Workbook :=
  let registry := Registry.empty.add settings.sheetName
  { settings := settings
    registry := registry
    sheets := (∅ : Std.ExtTreeMap SheetId Sheet).insert Registry.empty.nextId
      (.blank settings.rows settings.columns)
    defaultSheet := Registry.empty.nextId
    dependencies := .empty
    spills := .empty
    dirty := ∅
    changed := ∅
    functions := functions
    clipboard := none
    entered := 0
    journal := [] }

variable (w : Workbook)

/-- The sheet of a number. -/
def sheet? (id : SheetId) : Option Sheet := w.sheets[id]?

/-- The entry of a position. -/
def cell? (p : Position) : Option Cell := (w.sheet? p.sheet).bind fun s => s.cell? p.row p.column

/-- The formula at a position. -/
def formula? (p : Position) : Option Formula := (w.cell? p).bind Cell.formula?

/-- There is a formula at a position. -/
def isFormula (p : Position) : Bool := (w.formula? p).isSome

/-- Something was typed into a position. -/
def hasContent (p : Position) : Bool := (w.cell? p).any Cell.hasContent

/-- The formulas and where they are, in ascending order. -/
def formulas : List (Position × Formula) :=
  w.sheets.toList.flatMap fun (id, s) =>
    s.formulas.map fun (p, f) => (⟨id, p.row, p.column⟩, f)

/-- The positions of the formulas, in ascending order. -/
def formulaPositions : List Position := w.formulas.map Prod.fst

/-- The zone that a reference in a formula on `home` covers. The sheet must exist and hold the
zone. -/
def resolve (target : Reference) (home : SheetId) : Except CellError Zone :=
  match w.registry.resolve target.sheet home with
  | none => .error .invalidReference
  | some id =>
    match w.sheet? id with
    | none => .error .invalidReference
    | some s =>
      let zone := target.zone id s.rows s.columns
      if s.hasRoomFor zone then .ok zone else .error .invalidReference

/-- The zones that the references of a formula on `home` cover, where they do. -/
def zonesRead (e : Expr) (home : SheetId) : List Zone :=
  e.references.filterMap fun target => (w.resolve target home).toOption

/-- The formula at a position has a reference to a sheet, whether it leads to cells or not. -/
def mentionsSheet (p : Position) (id : SheetId) : Bool :=
  ((w.formula? p).bind Formula.expr?).any fun e =>
    e.references.any fun target => w.registry.resolve target.sheet p.sheet == some id

/-- The value a position shows: its own, or that of the array spilled over it. -/
def value (p : Position) : Value :=
  match (w.cell? p).map Cell.content with
  | some (.literal _ v) => v
  | some (.formula f) =>
    match w.spills.value? p with
    | some v => v
    | none =>
      match f.value with
      | .array rows => (Grid.first? rows).getD .empty
      | v => v
  | _ => (w.spills.value? p).getD .empty

/-- The format a position shows: the one chosen for it, or that of its result. -/
def format (p : Position) : Option String :=
  let cell := w.cell? p
  match cell.bind Cell.format with
  | some chosen => some chosen
  | none =>
    match cell.map Cell.content with
    | some (.formula f) =>
      if (w.spills.activeZone? p).isSome then w.spills.format? p else f.format
    | some (.literal _ _) => none
    | _ => w.spills.format? p

/-- The text a position shows: its value in its format. -/
def shownText (p : Position) : String := (w.value p).shown (w.format p)

/-- The content of a position as it would be typed. -/
def contentText (p : Position) : String :=
  ((w.cell? p).map fun c => c.content.text).getD ""

/-- A sheet of a name that does not exist. -/
def noSuchHome : CellError := .because .reference "Invalid sheet name"

/-- What a formula on the sheet of a name sees. -/
def surroundings (home : String) : Surroundings where
  resolve target :=
    match w.registry.id? home with
    | some id => w.resolve target id
    | none => .error noSuchHome
  value := w.value
  format := w.format
  function? := w.functions.resolve? ""

/-- Change a sheet, if it exists. -/
def updateSheet (id : SheetId) (change : Sheet → Sheet) : Workbook :=
  { w with sheets := w.sheets.modify id change }

/-- Change the cell at a position and drop it if it is blank then. -/
def updateCell (p : Position) (change : Cell → Cell) : Workbook :=
  w.updateSheet p.sheet fun s => (s.update p.row p.column change).prune p.row p.column

/-- Mark positions as to be evaluated. -/
def markDirty (positions : List Position) : Workbook :=
  { w with dirty := w.dirty.insertMany positions }

/-- Mark positions as changed. -/
def markChanged (positions : List Position) : Workbook :=
  { w with changed := w.changed.insertMany positions }

/-- Record what every formula reads anew. -/
def rebuildDependencies : Workbook :=
  { w with
    dependencies := w.formulas.foldl
      (fun d (p, f) =>
        match f.expr? with
        | some e => d.record p (w.zonesRead e p.sheet)
        | none => d)
      .empty }

/-- Replace the tree of every formula for which `redirect` gives one; it gets the sheet of the
formula. -/
def redirectFormulas (redirect : SheetId → Expr → Option Expr) : Workbook :=
  { w with
    sheets := w.sheets.map fun id s => s.mapFormulas fun f =>
      match f.expr?.bind (redirect id) with
      | some e => f.withExpr e
      | none => f }

/-- The formulas for which `redirect` gives a tree. -/
def redirected (redirect : SheetId → Expr → Option Expr) : List Position :=
  w.formulas.filterMap fun (p, f) => (f.expr?.bind (redirect p.sheet)).map fun _ => p

end Workbook

end Spreadsheet
