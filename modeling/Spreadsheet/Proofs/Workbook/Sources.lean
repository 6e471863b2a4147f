import Spreadsheet.Proofs.Workbook.Cells
import Spreadsheet.Workbook.Recalculation

/-!
# What a recalculation leaves alone

A recalculation replaces results of formulas, the spilled arrays and the marks. What was typed, the
chosen formats, the sheets, their names and what formulas read stay as they are.
-/
namespace Spreadsheet

/-- The content without the result of its formula. -/
def Content.source (content : Content) : Content := content.mapFormula Formula.cleared

/-- The result of a formula does not belong to the source of its cell. -/
theorem Content.source_mapFormula {change : Formula → Formula}
    (cleared : ∀ f, (change f).cleared = f.cleared) (content : Content) :
    (content.mapFormula change).source = content.source := by
  cases content with
  | empty => rfl
  | literal typed value => rfl
  | formula f => simp [source, mapFormula, cleared]

/-- The tree of a formula belongs to its source. -/
@[simp] theorem Content.expr?_source (content : Content) : content.source.expr? = content.expr? := by
  cases content <;> rfl

/-- Two workbooks have the same sheets under the same names and of the same extents. -/
structure SameSheets (w w' : Workbook) : Prop where
  settings : w'.settings = w.settings
  registry : w'.registry = w.registry
  functions : w'.functions = w.functions
  defaultSheet : w'.defaultSheet = w.defaultSheet
  extent : ∀ id, w'.extent? id = w.extent? id

namespace SameSheets

variable {w w' w'' : Workbook}

/-- A workbook has the sheets of itself. -/
theorem refl (w : Workbook) : SameSheets w w := ⟨rfl, rfl, rfl, rfl, fun _ => rfl⟩

/-- Sheets that are the same in two steps are the same. -/
theorem trans (first : SameSheets w w') (second : SameSheets w' w'') : SameSheets w w'' where
  settings := second.settings.trans first.settings
  registry := second.registry.trans first.registry
  functions := second.functions.trans first.functions
  defaultSheet := second.defaultSheet.trans first.defaultSheet
  extent id := (second.extent id).trans (first.extent id)

/-- The same sheets exist. -/
theorem isSome_sheet? (same : SameSheets w w') (id : SheetId) :
    (w'.sheet? id).isSome = (w.sheet? id).isSome := by
  rw [Workbook.isSome_sheet?_eq, Workbook.isSome_sheet?_eq, same.extent]

/-- References lead to the same zones. -/
theorem resolve (same : SameSheets w w') (target : Reference) (home : SheetId) :
    w'.resolve target home = w.resolve target home :=
  Workbook.resolve_congr same.registry same.extent target home

/-- Formulas read the same zones. -/
theorem zonesRead (same : SameSheets w w') (e : Expr) (home : SheetId) :
    w'.zonesRead e home = w.zonesRead e home :=
  Workbook.zonesRead_congr same.registry same.extent e home

/-- A change of one cell leaves the sheets. -/
theorem of_updateCell (w : Workbook) (p : Position) (change : Cell → Cell) :
    SameSheets w (w.updateCell p change) :=
  ⟨rfl, rfl, rfl, rfl, Workbook.extent?_updateCell w p change⟩

end SameSheets

/-- Two workbooks hold the same sources on the same sheets. -/
structure SameSources (w w' : Workbook) : Prop extends SameSheets w w' where
  dependencies : w'.dependencies = w.dependencies
  clipboard : w'.clipboard = w.clipboard
  entered : w'.entered = w.entered
  source : ∀ p, (w'.content p).source = (w.content p).source
  chosen : ∀ p, w'.chosen p = w.chosen p
  stored : ∀ p, (w'.cell? p).isSome = true → (w.cell? p).isSome = true

namespace SameSources

variable {w w' w'' : Workbook} {p : Position}

/-- A workbook has the sources of itself. -/
theorem refl (w : Workbook) : SameSources w w :=
  ⟨.refl w, rfl, rfl, rfl, fun _ => rfl, fun _ => rfl, fun _ => id⟩

/-- Spilled arrays, marks and the journal do not belong to the sources. -/
theorem of_results (w : Workbook) (spills : Spills) (dirty changed : PositionSet)
    (journal : List JournalEntry) :
    SameSources w
      { w with spills := spills, dirty := dirty, changed := changed, journal := journal } :=
  ⟨⟨rfl, rfl, rfl, rfl, fun _ => rfl⟩, rfl, rfl, rfl, fun _ => rfl, fun _ => rfl, fun _ => id⟩

/-- Sources that are the same in two steps are the same. -/
theorem trans (first : SameSources w w') (second : SameSources w' w'') : SameSources w w'' where
  toSameSheets := first.toSameSheets.trans second.toSameSheets
  dependencies := second.dependencies.trans first.dependencies
  clipboard := second.clipboard.trans first.clipboard
  entered := second.entered.trans first.entered
  source p := (second.source p).trans (first.source p)
  chosen p := (second.chosen p).trans (first.chosen p)
  stored p there := first.stored p (second.stored p there)

/-- The formulas of the same sources differ in results only. -/
theorem formula? (same : SameSources w w') (p : Position) :
    (w'.formula? p).map Formula.cleared = (w.formula? p).map Formula.cleared := by
  have sources := congrArg Content.formula? (same.source p)
  rw [Workbook.formula?_eq, Workbook.formula?_eq]
  simpa [Content.source] using sources

/-- The same positions hold formulas. -/
theorem isFormula (same : SameSources w w') (p : Position) : w'.isFormula p = w.isFormula p := by
  have sources := congrArg Option.isSome (same.formula? p)
  simpa [Workbook.isFormula] using sources

/-- Formulas have the same trees. -/
theorem expr? (same : SameSources w w') (p : Position) : w'.expr? p = w.expr? p := by
  have sources := congrArg Content.expr? (same.source p)
  rwa [Content.expr?_source, Content.expr?_source] at sources

/-- The same positions hold content. -/
theorem hasContent (same : SameSources w w') (p : Position) : w'.hasContent p = w.hasContent p := by
  have sources := congrArg Content.isEmpty (same.source p)
  rw [Workbook.hasContent_eq, Workbook.hasContent_eq]
  simpa [Content.source] using sources

end SameSources

namespace Workbook

/-- Replacing results leaves the sources. -/
theorem sameSources_updateCell (w : Workbook) (p : Position) {change : Formula → Formula}
    (cleared : ∀ f, (change f).cleared = f.cleared) :
    SameSources w (w.updateCell p fun c => c.mapFormula change) where
  toSameSheets := .of_updateCell w p _
  dependencies := rfl
  clipboard := rfl
  entered := rfl
  source q := by
    rw [content_updateCell]
    split
    · rename_i here
      rw [here.1, Cell.content_mapFormula]
      exact Content.source_mapFormula cleared _
    · rfl
  chosen q := by
    rw [chosen_updateCell]
    split
    · rename_i here
      rw [here.1, Cell.format_mapFormula]
    · rfl
  stored q there := by
    rw [cell?_updateCell] at there
    split at there
    · rename_i here
      rw [here.1]
      cases found : w.cell? p with
      | none =>
        rw [found] at there
        contradiction
      | some c => rfl
    · exact there

end Workbook

namespace Round

variable {r : Round}

/-- Other spilled arrays leave the sources. -/
theorem sameSources_withSpills (r : Round) (spills : Spills) :
    SameSources r.workbook (r.withSpills spills).workbook :=
  .of_results ..

/-- Making a formula due leaves the sources. -/
theorem sameSources_reschedule (r : Round) (p : Position) :
    SameSources r.workbook (r.reschedule p).workbook := by
  unfold reschedule
  split
  · exact .refl _
  · exact .of_results ..

/-- Making formulas due leaves the sources. -/
theorem sameSources_rescheduleAll (r : Round) (positions : List Position) :
    SameSources r.workbook (positions.foldl reschedule r).workbook :=
  List.foldlRecOn positions _ (motive := fun (t : Round) => SameSources r.workbook t.workbook)
    (.refl _) fun t sources p _ => sources.trans (t.sameSources_reschedule p)

/-- Making the readers of positions due leaves the sources. -/
theorem sameSources_touch (r : Round) (origin : Position) (positions : List Position) :
    SameSources r.workbook (r.touch origin positions).workbook :=
  List.foldlRecOn positions _ (motive := fun (t : Round) => SameSources r.workbook t.workbook)
    (.refl _) fun t sources _ _ => sources.trans (t.sameSources_rescheduleAll _)

/-- Making blocked anchors due leaves the sources. -/
theorem sameSources_wake (r : Round) (origin : Position) (positions : List Position) :
    SameSources r.workbook (r.wake origin positions).workbook :=
  List.foldlRecOn positions _ (motive := fun (t : Round) => SameSources r.workbook t.workbook)
    (.refl _) fun t sources _ _ => sources.trans (t.sameSources_rescheduleAll _)

/-- Taking its zone from an anchor leaves the sources. -/
theorem sameSources_preempt (r : Round) (owner : Position) :
    SameSources r.workbook (r.preempt owner).workbook :=
  (r.sameSources_withSpills (r.workbook.spills.release owner)).trans
    ((sameSources_touch _ _ _).trans (sameSources_wake _ _ _))

/-- Clearing the way for an array leaves the sources. -/
theorem sameSources_clearWay (anchor : Position) (rows columns fuel : Nat) (r : Round) :
    SameSources r.workbook (clearWay anchor rows columns fuel r).1.workbook := by
  induction fuel generalizing r with
  | zero => exact .refl _
  | succ fuel ih =>
    unfold clearWay
    split
    · split
      · exact (r.sameSources_preempt _).trans (ih _)
      · exact .refl _
    · exact .refl _

/-- Placing an array leaves the sources. -/
theorem sameSources_place (r : Round) (anchor : Position) (values : Grid Value)
    (formats : Grid (Option String)) :
    SameSources r.workbook (r.place anchor values formats).1.workbook := by
  have cleared := sameSources_clearWay anchor (Grid.extent values).1 (Grid.extent values).2
    r.workbook.spills.activeCount r
  unfold place
  dsimp only
  split
  · exact cleared.trans (sameSources_withSpills _ _)
  · exact cleared.trans (sameSources_withSpills _ _)

/-- Settling an outcome leaves the sources. -/
theorem sameSources_settle (r : Round) (p : Position) (outcome : Outcome) :
    SameSources r.workbook (r.settle p outcome).1.workbook := by
  cases outcome with
  | single value format => exact r.sameSources_withSpills _
  | array values formats => exact r.sameSources_place p values formats

/-- Keeping the result of a formula leaves the sources. -/
theorem sameSources_store (r : Round) (p : Position) (value : Value) (format : Option String) :
    SameSources r.workbook (r.store p value format).workbook :=
  Workbook.sameSources_updateCell _ _ fun _ => rfl

/-- Announcing a change leaves the sources. -/
theorem sameSources_announce (r : Round) (p : Position) (oldZone newZone : Option Zone) :
    SameSources r.workbook (r.announce p oldZone newZone).workbook :=
  (sameSources_touch _ _ _).trans (sameSources_wake _ _ _)

/-- Publishing a result leaves the sources. -/
theorem sameSources_publish (r : Round) (p : Position) (outcome : Outcome) :
    SameSources r.workbook (r.publish p outcome).workbook := by
  unfold publish
  cases found : r.workbook.formula? p with
  | none => exact .refl _
  | some f =>
    have stored := (r.sameSources_settle p outcome).trans (sameSources_store _ p
      (r.settle p outcome).2.1 (r.settle p outcome).2.2)
    dsimp only
    split
    · exact stored
    · exact stored.trans (sameSources_announce _ _ _ _)

/-- The journal has an entry for the formula that is being evaluated. -/
def note (r : Round) (p : Position) : Round :=
  { r with workbook := { r.workbook with
      journal := ⟨p, (r.workbook.compute p).calls⟩ :: r.workbook.journal } }

/-- A formula is evaluated by noting that and publishing what it comes to. -/
theorem evaluate_eq (r : Round) (p : Position) :
    r.evaluate p = (r.note p).publish p (r.workbook.compute p).outcome := rfl

/-- An entry of the journal leaves the sources. -/
theorem sameSources_note (r : Round) (p : Position) : SameSources r.workbook (r.note p).workbook :=
  .of_results ..

/-- Evaluating a formula leaves the sources. -/
theorem sameSources_evaluate (r : Round) (p : Position) :
    SameSources r.workbook (r.evaluate p).workbook := by
  rw [evaluate_eq]
  exact (r.sameSources_note p).trans (sameSources_publish ..)

/-- The turn of a formula leaves the sources. -/
theorem sameSources_turn (r : Round) (p : Position) :
    SameSources r.workbook (r.turn p).workbook := by
  unfold turn
  dsimp only
  split
  · exact (r.begin p).sameSources_evaluate p
  · exact .refl _

end Round

namespace Workbook

/-- Taking the marks off leaves the sources. -/
theorem sameSources_unmarked (w : Workbook) : SameSources w w.unmarked := .of_results ..

/-- The start of a round leaves the sources. -/
theorem sameSources_opening (w : Workbook) (plan : Schedule) :
    SameSources w (w.opening plan).workbook :=
  List.foldlRecOn _ _ (motive := fun (r : Round) => SameSources w r.workbook)
    w.sameSources_unmarked fun r sources p _ => sources.trans (r.sameSources_publish p .circular)

/-- Turns after the start of a round leave the sources. -/
theorem sameSources_turns (w : Workbook) (plan : Schedule) (order : List Position) :
    SameSources w (order.foldl Round.turn (w.opening plan)).workbook :=
  List.foldlRecOn _ _ (motive := fun (r : Round) => SameSources w r.workbook)
    (w.sameSources_opening plan) fun r sources p _ => sources.trans (r.sameSources_turn p)

/-- One round leaves the sources. -/
theorem sameSources_recalculateOnce (w : Workbook) : SameSources w w.recalculateOnce := by
  unfold recalculateOnce
  split
  · exact w.sameSources_unmarked
  · exact w.sameSources_turns _ _

/-- Any number of rounds leave the sources. -/
theorem sameSources_recalculateWithin (rounds : Nat) (w : Workbook) :
    SameSources w (w.recalculateWithin rounds) := by
  induction rounds generalizing w with
  | zero => exact w.sameSources_unmarked
  | succ rounds ih =>
    unfold recalculateWithin
    split
    · exact .refl _
    · exact w.sameSources_recalculateOnce.trans (ih _)

/-- A recalculation leaves the sources. -/
theorem sameSources_recalculate (w : Workbook) : SameSources w w.recalculate :=
  sameSources_recalculateWithin _ w

end Workbook

end Spreadsheet
