import Spreadsheet.Proofs.Workbook.ExclusiveArrays
import Spreadsheet.Proofs.Workbook.SettledRecalculations

/-!
# Workbooks between requests

Between requests nothing is marked, since a recalculation takes all marks away even if its rounds run
out, and dependencies are indexed, whatever they record.
-/
namespace Spreadsheet

namespace Workbook

variable {w w' : Workbook} {p q : Position} {request : Request}

/-- Nothing is marked, and dependencies are indexed. -/
structure Idle (w : Workbook) : Prop where
  unmarked : w.Unmarked
  indexed : w.dependencies.Indexed

/-- Nothing is marked when the rounds of a recalculation are over. -/
theorem unmarked_recalculateWithin (rounds : Nat) (w : Workbook) :
    (w.recalculateWithin rounds).Unmarked := by
  induction rounds generalizing w with
  | zero => exact ⟨rfl, rfl⟩
  | succ rounds ih =>
    unfold recalculateWithin
    split
    · rename_i idle
      exact unmarked_iff.mpr idle
    · exact ih w.recalculateOnce

/-- Nothing is marked after a recalculation. -/
theorem unmarked_recalculate (w : Workbook) : w.recalculate.Unmarked :=
  unmarked_recalculateWithin _ w

/-- Enlarging a sheet leaves what was recorded. -/
theorem indexed_growTo (indexed : w.dependencies.Indexed) (p : Position) :
    (w.growTo p).dependencies.Indexed := by
  rw [dependencies_growTo]
  exact indexed

/-- Choosing a format leaves what was recorded. -/
theorem indexed_chooseFormat (indexed : w.dependencies.Indexed) (p : Position)
    (format : Option String) : (w.chooseFormat p format).dependencies.Indexed := by
  rw [dependencies_chooseFormat]
  exact indexed

/-- Pasting a cell keeps dependencies indexed. -/
theorem indexed_pasteCell (indexed : w.dependencies.Indexed) (cell : ClipCell) (source target : Position)
    (mode : PasteMode) : (w.pasteCell cell source target mode).dependencies.Indexed := by
  cases mode with
  | everything => exact indexed_chooseFormat (indexed_replaceContent indexed _ _) _ _
  | value => exact indexed_replaceContent indexed _ _
  | format => exact indexed_chooseFormat indexed _ _

/-- Pasting a clip keeps dependencies indexed. -/
theorem indexed_pastedAll (indexed : w.dependencies.Indexed) (clip : Clip) (targets : List Zone)
    (mode : PasteMode) : (w.pastedAll clip targets mode).dependencies.Indexed :=
  pastedAll_induction (P := fun w => w.dependencies.Indexed) indexed
    (fun _ pasting _ kept => indexed_pasteCell (indexed_growTo kept pasting.2) _ _ _ _) targets

/-- Deleting content keeps dependencies indexed. -/
theorem indexed_emptied (indexed : w.dependencies.Indexed) (positions : List Position) :
    (w.emptied positions).dependencies.Indexed :=
  emptied_induction (P := fun w => w.dependencies.Indexed) indexed
    (fun _ p _ kept => indexed_replaceContent kept p .empty) positions

/-- Choosing formats keeps dependencies indexed. -/
theorem indexed_formatted (indexed : w.dependencies.Indexed) (positions : List Position)
    (format : Option String) : (w.formatted positions format).dependencies.Indexed :=
  formatted_induction (P := fun w => w.dependencies.Indexed) indexed
    fun _ p _ kept => indexed_chooseFormat kept p format

/-- A request prepares a workbook whose dependencies are indexed. -/
theorem Prepares.indexed (prepares : w.Prepares request w') (indexed : w.dependencies.Indexed) :
    w'.dependencies.Indexed := by
  cases prepares with
  | addSheet => exact indexed_rebuildDependencies _
  | deleteSheet => exact indexed_rebuildDependencies _
  | setContent => exact indexed_replaceContent indexed _ _
  | deleteContent => exact indexed_emptied indexed _
  | setFormat => exact indexed_formatted indexed _ _
  | reevaluate => exact indexed
  | flush => exact indexed
  | insertLines => exact indexed_rebuildDependencies _
  | deleteLines => exact indexed_rebuildDependencies _
  | paste => exact indexed_pastedAll indexed _ _ _
  | move => exact indexed_rebuildDependencies _
  | pasteCells => exact indexed_pastedAll indexed _ _ _

namespace Idle

/-- A new workbook. -/
theorem new (settings : Settings) (functions : FunctionTable) :
    (Workbook.new settings functions).Idle where
  unmarked := ⟨rfl, rfl⟩
  indexed := Dependencies.indexed_empty

/-- A request is answered with nothing left marked. -/
theorem after (idle : w.Idle) (request : Request) : (w.after request).Idle := by
  rw [after_eq]
  cases change : w.prepared request with
  | none =>
    dsimp only
    rw [clipped_eq]
    exact ⟨idle.unmarked, idle.indexed⟩
  | some w' =>
    have prepares := prepares_of_prepared change
    refine ⟨w'.unmarked_recalculate, ?_⟩
    dsimp only
    rw [w'.sameSources_recalculate.dependencies]
    exact prepares.indexed idle.indexed

end Idle

/-- In a workbook that is reached nothing is marked, and dependencies are indexed. -/
theorem Reachable.idle (reached : w.Reachable) : w.Idle := by
  induction reached with
  | new settings functions => exact .new settings functions
  | register _ f _ ih => exact ⟨ih.unmarked, ih.indexed⟩
  | after _ request _ ih => exact ih.after request
  | pasteCells _ _ _ _ targets mode ih _ => exact ih.after _

end Workbook

end Spreadsheet
