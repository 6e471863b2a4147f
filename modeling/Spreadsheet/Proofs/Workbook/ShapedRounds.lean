import Spreadsheet.Proofs.Workbook.Arrays
import Spreadsheet.Proofs.Workbook.Shapes

/-!
# Rectangular values through rounds

Every result that a round keeps or spills is what a formula comes to, which is rectangular as long as
everything the formula sees is.
-/
namespace Spreadsheet

namespace Round

variable {r r' : Round} {marked : Position → Prop} {p : Position}

/-- A workbook stays shaped when formulas are marked. -/
theorem Marks.shaped (marks : r.Marks marked r') (shaped : r.workbook.Shaped) :
    r'.workbook.Shaped := by
  rw [marks.workbook]
  exact shaped.congr shaped.content rfl rfl rfl

/-- Taking its zone from an anchor keeps a workbook shaped. -/
theorem shaped_preempt (shaped : r.workbook.Shaped) (owner : Position) :
    (r.preempt owner).workbook.Shaped :=
  (marks_touch_wake (r.withSpills (r.workbook.spills.release owner)) owner _ _).shaped
    (shaped.withSpills (shaped.states_release owner))

/-- Clearing the way for an array keeps a workbook shaped. -/
theorem shaped_clearWay (anchor : Position) (rows columns fuel : Nat)
    (shaped : r.workbook.Shaped) :
    (clearWay anchor rows columns fuel r).1.workbook.Shaped := by
  induction fuel generalizing r with
  | zero => exact shaped
  | succ fuel ih =>
    unfold clearWay
    split
    · split
      · exact ih (shaped_preempt shaped _)
      · exact shaped
    · exact shaped

/-- Placing an array that fits keeps a workbook shaped. -/
theorem shaped_place (shaped : r.workbook.Shaped) {values : Grid Value}
    {formats : Grid (Option String)} (fits : (Outcome.array values formats).Fits) :
    (r.place p values formats).1.workbook.Shaped ∧
      (r.place p values formats).2.1.Rectangular := by
  cases fits with
  | @array _ _ rows columns tall wide sized formatted entries =>
    have extent := sized.extent_eq tall
    have cleared := shaped_clearWay p rows columns r.workbook.spills.activeCount shaped
    have result := clearWay_result p rows columns r.workbook.spills.activeCount r
    unfold place
    rw [extent]
    dsimp only
    split
    · rename_i zone claimed
      rw [claimed] at result
      obtain ⟨sheetRows, sheetColumns, held, free⟩ := claim_eq_ok result.symm
      obtain ⟨start, _⟩ := Spills.checkClaim_eq_ok_iff.mp free
      have state : (SpillState.spilled zone values formats).Fits := by
        have height : zone.rows = rows := by
          rw [start]
          unfold Zone.rows Zone.fromAnchor
          dsimp only
          omega
        have breadth : zone.columns = columns := by
          rw [start]
          unfold Zone.columns Zone.fromAnchor
          dsimp only
          omega
        exact .spilled (by rw [height, breadth]; exact sized)
          (by rw [height, breadth]; exact formatted) entries
      exact ⟨cleared.withSpills (cleared.states_claim p state), .array wide sized.even entries⟩
    · exact ⟨cleared.withSpills (cleared.states_block p _),
        (Value.isSingle_error _).rectangular⟩

/-- Settling an outcome that fits keeps a workbook shaped. -/
theorem shaped_settle (shaped : r.workbook.Shaped) {outcome : Outcome} (fits : outcome.Fits) :
    (r.settle p outcome).1.workbook.Shaped ∧ (r.settle p outcome).2.1.Rectangular := by
  cases outcome with
  | single value format =>
    cases fits with
    | single alone => exact ⟨shaped.withSpills (shaped.states_release p), alone.rectangular⟩
  | array values formats => exact shaped_place shaped fits

/-- Publishing an outcome that fits keeps a workbook shaped. -/
theorem shaped_publish (shaped : r.workbook.Shaped) {outcome : Outcome} (fits : outcome.Fits) :
    (r.publish p outcome).workbook.Shaped := by
  unfold publish
  cases found : r.workbook.formula? p with
  | none => exact shaped
  | some f =>
    obtain ⟨settled, shape⟩ := shaped_settle (p := p) shaped fits
    have stored := settled.store p shape (r.settle p outcome).2.2
    dsimp only
    split
    · exact stored
    · obtain ⟨_, marks⟩ := marks_announce ((r.settle p outcome).1.store p (r.settle p outcome).2.1
        (r.settle p outcome).2.2) p (r.workbook.spills.activeZone? p)
        ((r.settle p outcome).1.workbook.spills.activeZone? p)
      exact marks.shaped stored

/-- The turn of a formula keeps a workbook shaped. -/
theorem shaped_turn (shaped : r.workbook.Shaped) (p : Position) : (r.turn p).workbook.Shaped := by
  unfold turn
  dsimp only
  split
  · have noted : ((r.begin p).note p).workbook.Shaped := shaped.congr shaped.content rfl rfl rfl
    rw [evaluate_eq]
    exact shaped_publish noted (shaped.fits_compute p)
  · exact shaped

end Round

namespace Workbook

variable {w : Workbook}

/-- Taking the marks off keeps a workbook shaped. -/
theorem Shaped.unmarked (shaped : w.Shaped) : w.unmarked.Shaped :=
  shaped.congr shaped.content rfl rfl rfl

/-- The start of a round keeps a workbook shaped. -/
theorem Shaped.opening (shaped : w.Shaped) (plan : Schedule) : (w.opening plan).workbook.Shaped :=
  List.foldlRecOn _ _ (motive := fun (r : Round) => r.workbook.Shaped) shaped.unmarked
    fun _ kept _ _ => Round.shaped_publish kept (Outcome.fits_failure _)

/-- One round keeps a workbook shaped. -/
theorem Shaped.recalculateOnce (shaped : w.Shaped) : w.recalculateOnce.Shaped := by
  unfold Workbook.recalculateOnce
  split
  · exact shaped.unmarked
  · exact List.foldlRecOn _ _ (motive := fun (r : Round) => r.workbook.Shaped)
      (shaped.opening w.plan) fun _ kept p _ => Round.shaped_turn kept p

/-- Any number of rounds keep a workbook shaped. -/
theorem Shaped.recalculateWithin (rounds : Nat) (shaped : w.Shaped) :
    (w.recalculateWithin rounds).Shaped := by
  induction rounds generalizing w with
  | zero => exact shaped.unmarked
  | succ rounds ih =>
    unfold Workbook.recalculateWithin
    split
    · exact shaped
    · exact ih shaped.recalculateOnce

/-- A recalculation keeps a workbook shaped. -/
theorem Shaped.recalculate (shaped : w.Shaped) : w.recalculate.Shaped :=
  shaped.recalculateWithin _

end Workbook

end Spreadsheet
