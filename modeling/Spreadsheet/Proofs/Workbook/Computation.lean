import Spreadsheet.Proofs.Evaluation.Congruence
import Spreadsheet.Proofs.Workbook.CurrentDependencies

/-!
# What a computation reads

As long as dependencies are up to date, what a formula comes to depends on its tree, on the sheets
and on what the positions it reads show.
-/
namespace Spreadsheet

namespace Workbook

variable {w w' : Workbook} {p q reader : Position}

/-- The formula at a position reads another position. -/
def Reads (w : Workbook) (reader q : Position) : Prop :=
  ∃ zone ∈ w.dependencies.zonesOf reader, zone.contains q = true

/-- Only formulas read. -/
theorem UpToDate.isFormula_of_reads (current : w.UpToDate) (reads : w.Reads reader q) :
    w.isFormula reader = true := by
  obtain ⟨zone, listed, _⟩ := reads
  rw [current.zonesOf, zonesNow, expr?_eq] at listed
  cases found : w.formula? reader with
  | none => simp [found] at listed
  | some f => simp [isFormula, found]

/-- The readers of a position are the formulas that read it. -/
theorem UpToDate.mem_readersOf (current : w.UpToDate) :
    reader ∈ w.dependencies.readersOf q ↔ w.Reads reader q :=
  current.indexed.mem_readersOf

/-- The number of every sheet has a name, and the name leads back to the number. -/
def Registered (w : Workbook) : Prop :=
  ∀ id, (w.sheet? id).isSome = true →
    ∃ name, w.registry.name? id = some name ∧ w.registry.id? name = some id

/-- Numbers and names depend on the sheets only. -/
theorem Registered.congr (registered : w.Registered) (same : SameSheets w w') : w'.Registered :=
  fun id exist => by
    rw [same.isSome_sheet?] at exist
    rw [same.registry]
    exact registered id exist

/-- The only sheet of a new workbook has its name. -/
theorem registered_new (settings : Settings) (functions : FunctionTable) :
    (new settings functions).Registered := by
  intro id exist
  have first : id = 0 := by
    by_contra other
    have gone : (new settings functions).sheet? id = none := by
      show ((∅ : Std.ExtTreeMap SheetId Sheet).insert 0 _)[id]? = none
      rw [Std.ExtTreeMap.getElem?_insert, if_neg fun same =>
        other (Std.LawfulEqOrd.eq_of_compare same).symm]
      rfl
    rw [gone] at exist
    contradiction
  subst first
  refine ⟨settings.sheetName, rfl, ?_⟩
  show ((∅ : Std.ExtTreeMap String SheetId).insert _ _)[_]? = _
  rw [Std.ExtTreeMap.getElem?_insert_self]
  rfl

/-- A formula on a sheet that exists resolves its references from there. -/
theorem Registered.resolve_surroundings (registered : w.Registered)
    (exist : (w.sheet? p.sheet).isSome = true) (target : Reference) :
    (w.surroundings ((w.registry.name? p.sheet).getD "")).resolve target =
      w.resolve target p.sheet := by
  obtain ⟨name, named, back⟩ := registered p.sheet exist
  simp [surroundings, named, back]

/-- What a formula comes to depends on its tree, on where its references lead and on what the
positions it reads show. -/
theorem compute_congr_of_resolve (current : w.UpToDate) (registered : w.Registered)
    (registered' : w'.Registered) (functions : w'.functions = w.functions)
    (tree : (w'.formula? p).map Formula.tree = (w.formula? p).map Formula.tree)
    (resolve : ∀ e, w.expr? p = some e → ∀ target ∈ e.references,
      w'.resolve target p.sheet = w.resolve target p.sheet)
    (value : ∀ q, w.Reads p q → w'.value q = w.value q)
    (format : ∀ q, w.Reads p q → w'.format q = w.format q) : w'.compute p = w.compute p := by
  unfold compute
  cases found : w.formula? p with
  | none =>
    rw [found, Option.map_none, Option.map_eq_none_iff] at tree
    rw [tree]
  | some f =>
    rw [found, Option.map_some, Option.map_eq_some_iff] at tree
    obtain ⟨f', found', trees⟩ := tree
    simp only [found', trees]
    cases parsed : f.tree with
    | error e => rfl
    | ok e =>
      have exist := isSome_sheet?_of_formula? found
      have exist' := isSome_sheet?_of_formula? found'
      have own : w.expr? p = some e := by
        rw [expr?_eq, found, Option.bind_some, Formula.expr?, parsed]
        rfl
      have agree : ∀ target ∈ e.references, Surroundings.Agree
          (w.surroundings ((w.registry.name? p.sheet).getD ""))
          (w'.surroundings ((w'.registry.name? p.sheet).getD "")) target := by
        intro target listed
        have read : ∀ zone, w.resolve target p.sheet = .ok zone → ∀ q, zone.contains q = true →
            w.Reads p q := by
          intro zone led q inside
          refine ⟨zone, ?_, inside⟩
          rw [current.zonesOf, zonesNow, own]
          exact mem_sortedZones.mpr (mem_zonesRead.mpr ⟨target, listed, led⟩)
        refine ⟨?_, fun zone led q inside => ?_, fun zone led q inside => ?_⟩
        · rw [registered'.resolve_surroundings exist', registered.resolve_surroundings exist,
            resolve e own target listed]
        · rw [registered.resolve_surroundings exist] at led
          exact value q (read zone led q inside)
        · rw [registered.resolve_surroundings exist] at led
          exact format q (read zone led q inside)
      have known : (w'.surroundings ((w'.registry.name? p.sheet).getD "")).function? =
          (w.surroundings ((w.registry.name? p.sheet).getD "")).function? := by
        simp only [surroundings, functions]
      dsimp only
      rw [Expr.evaluate_congr known e agree, Expr.format_congr known e agree]

/-- On the same sheets what a formula comes to depends on the positions it reads. -/
theorem compute_congr (current : w.UpToDate) (registered : w.Registered) (same : SameSheets w w')
    (tree : (w'.formula? p).map Formula.tree = (w.formula? p).map Formula.tree)
    (value : ∀ q, w.Reads p q → w'.value q = w.value q)
    (format : ∀ q, w.Reads p q → w'.format q = w.format q) : w'.compute p = w.compute p :=
  compute_congr_of_resolve current registered (registered.congr same) same.functions tree
    (fun _ _ target _ => same.resolve target p.sheet) value format

end Workbook

end Spreadsheet
