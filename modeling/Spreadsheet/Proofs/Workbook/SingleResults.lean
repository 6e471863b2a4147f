import Spreadsheet.Proofs.Workbook.Plans
import Spreadsheet.Proofs.Workbook.Rounds

/-!
# Rounds without arrays

As long as no formula comes to an array, publishing replaces one result and tells its readers if it
is another one than before. A round then leaves every formula it evaluates with what the formula
comes to in the end, and every formula on a cycle with the error of cycles.
-/
namespace Spreadsheet

/-- Two outcomes are single and the same, their values compared as values. -/
def Outcome.same : Outcome → Outcome → Bool
  | .single value format, .single otherValue otherFormat =>
    value.same otherValue && format == otherFormat
  | _, _ => false

/-- The error of cycles is the same as itself. -/
theorem Outcome.same_circular : Outcome.circular.same .circular = true := by
  simp [circular, failure, same, Value.same]

/-- No array is left where none was spilled. -/
theorem Spills.release_empty (p : Position) : empty.release p = empty := by
  have active : empty.activeZone? p = none := activeZone?_empty p
  unfold release
  rw [active]
  simp [empty]

namespace Workbook

variable {w w' w'' : Workbook} {p q : Position}

/-- The result that the formula at a position keeps. -/
def result? (w : Workbook) (p : Position) : Option Outcome :=
  (w.formula? p).map fun f => .single f.value f.format

/-- The formula at a position keeps the same result in two workbooks. -/
def SameResult (w w' : Workbook) (p : Position) : Prop :=
  ∃ old new, w.result? p = some old ∧ w'.result? p = some new ∧ old.same new = true

/-- Whether a result is the same depends on the results. -/
theorem sameResult_congr {v v' : Workbook} (first : v.result? p = w.result? p)
    (second : v'.result? p = w'.result? p) : SameResult v v' p ↔ SameResult w w' p := by
  unfold SameResult
  rw [first, second]

/-- The same sources with the same result are the same content. -/
theorem content_eq_of_result? (same : SameSources w w') (result : w'.result? q = w.result? q) :
    w'.content q = w.content q := by
  have source := same.source q
  unfold result? at result
  rw [formula?_eq, formula?_eq] at result
  cases old : w.content q with
  | empty =>
    cases new : w'.content q with
    | empty => rfl
    | literal typed value => simp [old, new, Content.source, Content.mapFormula] at source
    | formula f => simp [old, new, Content.source, Content.mapFormula] at source
  | literal typed value =>
    cases new : w'.content q with
    | empty => simp [old, new, Content.source, Content.mapFormula] at source
    | literal typed' value' => simpa [old, new, Content.source, Content.mapFormula] using source
    | formula f => simp [old, new, Content.source, Content.mapFormula] at source
  | formula f =>
    cases new : w'.content q with
    | empty => simp [old, new, Content.source, Content.mapFormula] at source
    | literal typed' value' => simp [old, new, Content.source, Content.mapFormula] at source
    | formula f' =>
      obtain ⟨text, tree, sequence, value, format⟩ := f
      obtain ⟨text', tree', sequence', value', format'⟩ := f'
      simp [old, new, Content.source, Content.mapFormula, Formula.cleared] at source
      simp [old, new, Content.formula?] at result
      simp [source, result]

/-- What a position shows depends on the sources, the arrays and its result. -/
theorem value_congr (same : SameSources w w') (spills : w'.spills = w.spills)
    (result : w'.result? q = w.result? q) : w'.value q = w.value q := by
  rw [value_eq, value_eq, spills, content_eq_of_result? same result]

/-- The format a position shows depends on the sources, the arrays and its result. -/
theorem format_congr (same : SameSources w w') (spills : w'.spills = w.spills)
    (result : w'.result? q = w.result? q) : w'.format q = w.format q := by
  rw [format_eq, format_eq, spills, same.chosen, content_eq_of_result? same result]

/-- What a formula comes to depends on the results of what it reads. -/
theorem compute_congr_results (current : w.UpToDate) (registered : w.Registered)
    (same : SameSources w w') (spills : w'.spills = w.spills)
    (results : ∀ q, w.Reads p q → w'.result? q = w.result? q) : w'.compute p = w.compute p := by
  refine compute_congr current registered same.toSameSheets ?_
    (fun q reads => value_congr same spills (results q reads))
    (fun q reads => format_congr same spills (results q reads))
  have cleared := congrArg (Option.map Formula.tree) (same.formula? p)
  simpa [Option.map_map, Function.comp_def, Formula.cleared] using cleared

end Workbook

namespace Round

variable {r r' : Round} {p q : Position} {f : Formula}

/-- Keeping a result replaces that of its formula. -/
theorem result?_store (r : Round) (formula : r.workbook.isFormula p = true) (value : Value)
    (format : Option String) (q : Position) :
    (r.store p value format).workbook.result? q =
      if q = p then some (.single value format) else r.workbook.result? q := by
  obtain ⟨f, found⟩ := Option.isSome_iff_exists.mp formula
  have exist := Workbook.isSome_sheet?_of_formula? found
  rw [Workbook.formula?_eq] at found
  unfold store Workbook.result?
  rw [Workbook.formula?_eq, Workbook.content_updateCell]
  by_cases here : q = p
  · rw [if_pos here, if_pos ⟨here, exist⟩, Cell.content_mapFormula, Content.formula?_mapFormula,
      found]
    rfl
  · rw [if_neg here, if_neg fun both => here both.1, Workbook.formula?_eq]

/-- A round publishes a single result of a formula: the result is replaced, and if it is another one
than before, the formulas that read it are told. -/
structure Publishes (r : Round) (p : Position) (outcome : Outcome) (r' : Round) : Prop where
  sources : SameSources r.workbook r'.workbook
  spills : r'.workbook.spills = r.workbook.spills
  changed : r'.workbook.changed = r.workbook.changed
  pending : r'.pending = r.pending
  result : ∀ q, r'.workbook.result? q = if q = p then some outcome else r.workbook.result? q
  mem_dirty : ∀ q, q ∈ r'.workbook.dirty ↔ q ∈ r.workbook.dirty ∨ q ∉ r.pending ∧
    ¬ r.workbook.SameResult r'.workbook p ∧ Touched r.workbook p [p] q
  mem_due : ∀ q, q ∈ r'.due ↔ q ∈ r.due ∨ q ∈ r.pending ∧
    ¬ r.workbook.SameResult r'.workbook p ∧ Touched r.workbook p [p] q

/-- A result is compared with the one kept before. -/
theorem sameResult_store (found : r.workbook.formula? p = some f) (value : Value)
    (format : Option String) :
    r.workbook.SameResult (r.store p value format).workbook p ↔
      (Outcome.single f.value f.format).same (.single value format) = true := by
  have formula : r.workbook.isFormula p = true := by simp [Workbook.isFormula, found]
  have old : r.workbook.result? p = some (.single f.value f.format) := by
    simp [Workbook.result?, found]
  unfold Workbook.SameResult
  rw [r.result?_store formula, if_pos rfl, old]
  simp

/-- Where no array is spilled, publishing a single result is keeping it and telling its readers if it
is another one. -/
theorem marks_publish_single (bare : r.workbook.spills = .empty)
    (found : r.workbook.formula? p = some f) (value : Value) (format : Option String) :
    (r.store p value format).Marks
      (fun q => ¬ r.workbook.SameResult (r.store p value format).workbook p ∧
        Touched r.workbook p [p] q)
      (r.publish p (.single value format)) := by
  have settled : r.withSpills (r.workbook.spills.release p) = r := by
    rw [bare, Spills.release_empty, ← bare]
    rfl
  have publish : r.publish p (.single value format) =
      if (f.value.same value && f.format == format) = true then r.store p value format
      else ((r.store p value format).touch p [p]).wake p [] := by
    have active : r.workbook.spills.activeZone? p = none := by rw [bare, Spills.activeZone?_empty]
    have state : r.workbook.spills.state? p = none := by rw [bare, Spills.state?_empty]
    have alone : sortedPositions [p] = [p] := rfl
    simp [Round.publish, found, settle, settled, state, sameState, announce, active, alone]
  rw [publish]
  have compared : r.workbook.SameResult (r.store p value format).workbook p ↔
      (f.value.same value && f.format == format) = true := sameResult_store found value format
  split
  · rename_i same
    exact (Marks.refl _).congr fun q => by simp [compared.mpr same]
  · rename_i other
    refine (marks_touch_wake _ p [p] []).congr fun q => ?_
    have sources := r.sameSources_store p value format
    simp only [compared, other, Touched, sources.isFormula, sources.dependencies, Woken,
      List.not_mem_nil, false_and, exists_const, and_false, or_false]
    simp

/-- Where no array is spilled, a single result is published. -/
theorem publishes_single (bare : r.workbook.spills = .empty)
    (formula : r.workbook.isFormula p = true) (value : Value) (format : Option String) :
    r.Publishes p (.single value format) (r.publish p (.single value format)) := by
  obtain ⟨f, found⟩ := Option.isSome_iff_exists.mp formula
  have marks := marks_publish_single bare found value format
  have result : ∀ q, (r.publish p (.single value format)).workbook.result? q =
      if q = p then some (.single value format) else r.workbook.result? q := fun q => by
    rw [marks.workbook]
    exact r.result?_store formula value format q
  have compared : r.workbook.SameResult (r.publish p (.single value format)).workbook p ↔
      r.workbook.SameResult (r.store p value format).workbook p :=
    Workbook.sameResult_congr rfl (by rw [result, r.result?_store formula])
  refine ⟨r.sameSources_publish p _, ?_, ?_, marks.pending, result, fun q => ?_, fun q => ?_⟩
  · rw [marks.workbook]
    rfl
  · rw [marks.workbook]
    rfl
  · rw [marks.mem_dirty, compared]
    rfl
  · rw [marks.mem_due, compared]
    rfl

end Round

end Spreadsheet
