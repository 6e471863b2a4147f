import Spreadsheet.Proofs.Workbook.Contents
import Spreadsheet.Workbook.Clipboard

/-!
# Sheets that grow

Enlarging a sheet changes an extent and marks the formulas of the sheet. What was typed stays, and
so does what formulas were recorded to read, even where their references now cover more.
-/
namespace Spreadsheet

namespace Workbook

variable {w : Workbook} {p q : Position}

/-- Enlarging a sheet leaves the entries of cells. -/
theorem cell?_growTo (w : Workbook) (p q : Position) : (w.growTo p).cell? q = w.cell? q := by
  unfold growTo
  split
  · rfl
  · show (w.updateSheet p.sheet _).cell? q = w.cell? q
    unfold cell?
    rw [sheet?_updateSheet]
    split
    · rename_i same
      rw [same]
      cases w.sheet? p.sheet <;> rfl
    · rfl

/-- Enlarging a sheet leaves the contents. -/
theorem content_growTo (w : Workbook) (p q : Position) :
    (w.growTo p).content q = w.content q := by
  unfold content
  rw [cell?_growTo]

/-- Enlarging a sheet leaves the chosen formats. -/
theorem chosen_growTo (w : Workbook) (p q : Position) : (w.growTo p).chosen q = w.chosen q := by
  unfold chosen
  rw [cell?_growTo]

/-- Enlarging a sheet leaves the arrays. -/
theorem spills_growTo (w : Workbook) (p : Position) : (w.growTo p).spills = w.spills := by
  unfold growTo
  split <;> rfl

/-- Enlarging a sheet leaves what formulas were recorded to read. -/
theorem dependencies_growTo (w : Workbook) (p : Position) :
    (w.growTo p).dependencies = w.dependencies := by
  unfold growTo
  split <;> rfl

/-- Enlarging a sheet leaves the names of sheets. -/
theorem registry_growTo (w : Workbook) (p : Position) : (w.growTo p).registry = w.registry := by
  unfold growTo
  split <;> rfl

/-- Enlarging a sheet leaves the functions. -/
theorem functions_growTo (w : Workbook) (p : Position) : (w.growTo p).functions = w.functions := by
  unfold growTo
  split <;> rfl

/-- Enlarging a sheet leaves the clipboard. -/
theorem clipboard_growTo (w : Workbook) (p : Position) : (w.growTo p).clipboard = w.clipboard := by
  unfold growTo
  split <;> rfl

/-- The extent of a sheet that is enlarged to hold a position, if need be. -/
theorem extent?_growTo (w : Workbook) (p : Position) (id : SheetId) :
    (w.growTo p).extent? id =
      if id = p.sheet then
        (w.extent? id).map fun (rows, columns) => (max rows (p.row + 1), max columns (p.column + 1))
      else w.extent? id := by
  unfold growTo
  split
  · rename_i fits
    split
    · rename_i same
      subst same
      unfold extent?
      cases found : w.sheet? p.sheet with
      | none => rfl
      | some s =>
        rw [found, Option.any_some, Sheet.inBounds, Bool.and_eq_true, decide_eq_true_eq,
          decide_eq_true_eq] at fits
        simp only [Option.map_some, Option.some.injEq, Prod.mk.injEq]
        omega
    · rfl
  · show (w.updateSheet p.sheet _).extent? id = _
    unfold extent?
    rw [sheet?_updateSheet]
    split
    · rename_i same
      rw [same]
      cases w.sheet? p.sheet <;> rfl
    · rfl

/-- Enlarging a sheet neither adds nor removes sheets. -/
theorem isSome_sheet?_growTo (w : Workbook) (p : Position) (id : SheetId) :
    ((w.growTo p).sheet? id).isSome = (w.sheet? id).isSome := by
  rw [isSome_sheet?_eq, isSome_sheet?_eq, extent?_growTo]
  split
  · rw [Option.isSome_map]
  · rfl

/-- What is marked dirty when a sheet is enlarged: its formulas. -/
theorem mem_dirty_growTo :
    q ∈ (w.growTo p).dirty ↔
      q ∈ w.dirty ∨ (w.sheet? p.sheet).any (fun s => s.inBounds p.row p.column) = false ∧
        w.isFormula q = true ∧ q.sheet = p.sheet := by
  unfold growTo
  split
  · rename_i fits
    simp [fits]
  · rename_i small
    simp [small, markDirty, updateSheet, mem_formulaPositions]

/-! ### Pasted cells -/

/-- Pasting a cell leaves the sheets. -/
theorem sameSheets_pasteCell (w : Workbook) (cell : ClipCell) (source target : Position)
    (mode : PasteMode) : SameSheets w (w.pasteCell cell source target mode) := by
  cases mode with
  | everything => exact (sameSheets_replaceContent ..).trans (sameSheets_chooseFormat ..)
  | value => exact sameSheets_replaceContent ..
  | format => exact sameSheets_chooseFormat ..

/-- Putting down a cut cell leaves the sheets. -/
theorem sameSheets_placeCell (w : Workbook) (source : Zone) (anchor : Position) (cell : ClipCell)
    (p : Position) : SameSheets w (w.placeCell source anchor cell p) :=
  (sameSheets_replaceContent ..).trans (sameSheets_chooseFormat ..)

/-- Clearing a cell leaves the sheets. -/
theorem sameSheets_clearCell (w : Workbook) (p : Position) : SameSheets w (w.clearCell p) := by
  unfold clearCell
  split
  · exact (sameSheets_replaceContent ..).trans (sameSheets_chooseFormat ..)
  · exact .refl w

end Workbook

end Spreadsheet
