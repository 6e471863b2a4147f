import Spreadsheet.Proofs.Workbook.CurrentDependencies

/-!
# Typing into a cell

A text that is typed into a cell becomes its content. The other cells and the sheets stay as they are.
-/
namespace Spreadsheet

namespace Workbook

/-- Typing leaves the sheets. -/
theorem sameSheets_after_setContent (w : Workbook) (p : Position) (text : String) :
    SameSheets w (w.after (.setContent p.sheet p.row p.column text)) := by
  rw [after_eq]
  cases found : w.prepared (.setContent p.sheet p.row p.column text) with
  | none => exact .refl w
  | some w' =>
    cases prepares_of_prepared found with
    | setContent =>
      exact (sameSheets_replaceContent ..).trans (sameSources_recalculate _).toSameSheets

/-- Typing stores nothing elsewhere. -/
theorem isSome_cell?_after_setContent (w : Workbook) (p : Position) (text : String) {q : Position}
    (there : ((w.after (.setContent p.sheet p.row p.column text)).cell? q).isSome = true) :
    q = p ∨ (w.cell? q).isSome = true := by
  rw [after_eq] at there
  cases found : w.prepared (.setContent p.sheet p.row p.column text) with
  | none =>
    rw [found] at there
    exact .inr there
  | some w' =>
    rw [found] at there
    have before := w'.sameSources_recalculate.stored q there
    cases prepares_of_prepared found with
    | setContent =>
      rw [cell?, sheet?, sheets_replaceContent] at before
      change ((w.updateCell p _).cell? q).isSome = true at before
      rw [cell?_updateCell] at before
      split at before
      · rename_i here
        exact .inl here.1
      · exact .inr before

/-- The tree of what is typed into a sheet, and those of all other cells. -/
theorem expr?_after_setContent (w : Workbook) (p : Position) (text : String) (q : Position)
    (inside : (w.sheet? p.sheet).any (·.inBounds p.row p.column) = true) :
    (w.after (.setContent p.sheet p.row p.column text)).expr? q =
      if q = p then (Content.ofText text).expr? else w.expr? q := by
  have exist : (w.sheet? p.sheet).isSome = true := Option.isSome_of_any inside
  rw [after_eq, prepared, if_pos inside]
  exact ((w.replaceContent p (.ofText text)).sameSources_recalculate.expr? q).trans
    (expr?_replaceContent w p q (.ofText text) exist)

/-- The tree of the first formula that is typed into a new workbook. -/
theorem exists_expr?_after_setContent (settings : Settings) (functions : FunctionTable)
    (p : Position) (text : String) (references : List Reference)
    (inside : ((new settings functions).sheet? p.sheet).any (·.inBounds p.row p.column) = true)
    (tree : (Content.ofText text).expr?.map Expr.references = some references) :
    ∃ e, ((new settings functions).after (.setContent p.sheet p.row p.column text)).expr? p =
        some e ∧ e.references = references := by
  obtain ⟨e, read, refers⟩ := Option.map_eq_some_iff.mp tree
  exact ⟨e, (expr?_after_setContent _ p text p inside).trans ((if_pos rfl).trans read), refers⟩

end Workbook

end Spreadsheet
