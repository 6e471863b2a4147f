import Spreadsheet.Proofs.Recalculation.CorrectSchedules
import Spreadsheet.Proofs.Workbook.CitedRounds

/-!
# Rounds whose order is known

Which formula has its turn when is found by a search. The order is known without that search if each
formula needs the one before it, or if no formula was entered before one that it needs. A round is then
the turns of a given list, and a recalculation is such rounds one after the other.
-/
namespace Spreadsheet

namespace Workbook

variable {w : Workbook} {order : List Position}

/-! ### Rounds -/

/-- A round in which the formulas of a list have their turns one after the other. -/
def inTurn (w : Workbook) (order : List Position) : Workbook :=
  (order.foldl Round.turn ⟨w.unmarked, .ofList order compare, w.due⟩).workbook

/-- Turns begin at once if no formula is found on a cycle. -/
theorem opening_of_plan (plan : w.plan.order = order ∧ w.plan.cyclic = []) :
    w.opening w.plan = ⟨w.unmarked, .ofList order compare, w.due⟩ := by
  unfold opening
  rw [plan.1, plan.2]
  rfl

/-- A round that finds no formula on a cycle is the turns of those that it schedules. -/
theorem recalculateOnce_of_plan (plan : w.plan.order = order ∧ w.plan.cyclic = [])
    (busy : w.due.isEmpty = false) : w.recalculateOnce = w.inTurn order := by
  unfold recalculateOnce inTurn
  rw [if_neg (by simp [busy])]
  dsimp only
  rw [opening_of_plan plan, plan.1]

/-- A round schedules the formulas of a list in the order of the list, because each needs the one
before it and none needs one after it. -/
def Chained (w : Workbook) (order : List Position) : Prop :=
  let firm := (Schedule.needs w.dependencies w.spills w.vertices).firm
  order.Nodup ∧ (∀ p ∈ w.vertices, p ∈ order) ∧ (∀ p ∈ order, p ∈ w.vertices) ∧
    (∀ u ∈ order, ∀ v ∈ Needs.readers firm u, order.idxOf u < order.idxOf v) ∧
    order.IsChain fun u v => v ∈ Needs.readers firm u

instance (w : Workbook) (order : List Position) : Decidable (w.Chained order) :=
  inferInstanceAs (Decidable (_ ∧ _ ∧ _ ∧ _ ∧ _))

namespace Chained

/-- The plan of a round that schedules a chain. -/
theorem plan (chained : w.Chained order) : w.plan.order = order ∧ w.plan.cyclic = [] := by
  obtain ⟨distinct, inside, scheduled, rises, chain⟩ := chained
  exact w.orders_plan.eq_of_chain distinct (fun p => ⟨inside p, scheduled p⟩) rises chain

/-- A round that schedules a chain is the turns of its formulas. -/
theorem recalculateOnce (chained : w.Chained order) (busy : w.due.isEmpty = false) :
    w.recalculateOnce = w.inTurn order :=
  recalculateOnce_of_plan chained.plan busy

end Chained

/-- A round schedules the formulas of a list in the order of the list, because they were entered in
that order and none needs one after it. -/
def Ascending (w : Workbook) (order : List Position) : Prop :=
  let needs := (Schedule.needs w.dependencies w.spills w.vertices).all
  (∀ p ∈ w.vertices, p ∈ order) ∧ (∀ p ∈ order, p ∈ w.vertices) ∧
    (∀ u ∈ order, ∀ v ∈ Needs.readers needs u, order.idxOf u < order.idxOf v) ∧
    order.Pairwise (Schedule.Earlier fun p => ((w.formula? p).map Formula.sequence).getD 0)

instance (w : Workbook) (order : List Position) : Decidable (w.Ascending order) :=
  inferInstanceAs (Decidable (_ ∧ _ ∧ _ ∧ _))

namespace Ascending

/-- The plan of a round that schedules formulas as they were entered. -/
theorem plan (ascending : w.Ascending order) : w.plan.order = order ∧ w.plan.cyclic = [] := by
  obtain ⟨inside, scheduled, rises, entered⟩ := ascending
  have plan : w.plan = ⟨order, []⟩ :=
    Schedule.ofVertices_eq_of_ascending w.dependencies w.spills ((Schedule.nodup_closure _ _).filter _)
      (fun p => ⟨inside p, scheduled p⟩) rises entered
  rw [plan]
  exact ⟨rfl, rfl⟩

/-- A round that schedules formulas as they were entered is their turns. -/
theorem recalculateOnce (ascending : w.Ascending order) (busy : w.due.isEmpty = false) :
    w.recalculateOnce = w.inTurn order :=
  recalculateOnce_of_plan ascending.plan busy

end Ascending

/-! ### Recalculations -/

/-- Where nothing is marked a round changes nothing. -/
theorem Unmarked.recalculateOnce (unmarked : w.Unmarked) : w.recalculateOnce = w := by
  have idle : w.due.isEmpty = true := Std.ExtTreeSet.isEmpty_iff.mpr
    (Std.ExtTreeSet.eq_empty_iff_forall_not_mem.mpr fun p =>
      not_mem_due_of_unmarked unmarked.1 unmarked.2)
  unfold Workbook.recalculateOnce
  rw [if_pos idle]
  exact unmarked.recalculateWithin 0

/-- A recalculation goes on after its first round. -/
theorem recalculateWithin_succ (rounds : Nat) (w : Workbook) :
    w.recalculateWithin (rounds + 1) = w.recalculateOnce.recalculateWithin rounds := by
  rw [recalculateWithin]
  split
  · rename_i idle
    have unmarked := unmarked_iff.mpr idle
    rw [unmarked.recalculateOnce, unmarked.recalculateWithin]
  · rfl

/-- A recalculation is its first round if that leaves nothing marked. -/
theorem recalculate_eq_of_once (once : w.recalculateOnce.Unmarked) :
    w.recalculate = w.recalculateOnce := by
  rw [recalculate, recalculateWithin_succ]
  exact once.recalculateWithin _

end Workbook

end Spreadsheet
