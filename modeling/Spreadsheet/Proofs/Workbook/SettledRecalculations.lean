import Spreadsheet.Proofs.Workbook.SettledRounds

/-!
# Recalculations that settle formulas

A recalculation is steady if it ends before its rounds run out, meets no cycle, lets no formula read
the array that the formula itself has spilled, and never changes a result in the sign of a zero only.
A steady recalculation of a workbook in which every formula is settled or due settles every formula,
except that a formula may read its own cell without being found on a cycle.
-/
namespace Spreadsheet

namespace Workbook

/-- No formula reads a position of a zone that it has claimed itself. -/
def ReadsApart (w : Workbook) : Prop :=
  ∀ p q zone, w.Reads p q → w.spills.activeZone? p = some zone → zone.contains q = false

/-- A round finds no cycle, and at every moment of it formulas read no zone of their own and results
keep the signs of zeros. -/
structure Steady (w : Workbook) : Prop where
  acyclic : w.plan.cyclic = []
  apart : ∀ before, before <+: w.plan.order →
    (before.foldl Round.turn (w.opening w.plan)).workbook.ReadsApart
  signs : ∀ before p, before ++ [p] <+: w.plan.order →
    (before.foldl Round.turn (w.opening w.plan)).workbook.SignsKept
      ((before ++ [p]).foldl Round.turn (w.opening w.plan)).workbook p

/-- Nothing is marked. -/
def Unmarked (w : Workbook) : Prop := w.dirty = ∅ ∧ w.changed = ∅

/-- A recalculation stops where nothing is marked. -/
theorem unmarked_iff {w : Workbook} :
    w.Unmarked ↔ (w.dirty.isEmpty && w.changed.isEmpty) = true := by
  rw [Bool.and_eq_true, Std.ExtTreeSet.isEmpty_iff, Std.ExtTreeSet.isEmpty_iff]
  rfl

/-- Within a number of rounds, all of them steady, nothing is marked any more. -/
def SteadyWithin : Nat → Workbook → Prop
  | 0, w => w.Unmarked
  | rounds + 1, w => w.Unmarked ∨ w.Steady ∧ SteadyWithin rounds w.recalculateOnce

/-- A recalculation is steady. -/
def RecalculatesSteadily (w : Workbook) : Prop := w.SteadyWithin (w.settings.rounds + 1)

/-- Where nothing is marked no round is needed. -/
theorem Unmarked.steadyWithin {w : Workbook} (unmarked : w.Unmarked) (rounds : Nat) :
    w.SteadyWithin rounds := by
  cases rounds with
  | zero => exact unmarked
  | succ rounds => exact .inl unmarked

/-- Every formula is due or settled, or it reads its own cell. -/
def Watched (w : Workbook) : Prop :=
  ∀ p, w.isFormula p = true → p ∈ w.due ∨ w.Reads p p ∨ w.Settled p

/-- At a moment of a round every formula has been told, or is settled, or reads its own cell. -/
structure Attended (w : Workbook) (r : Round) : Prop where
  sources : SameSources w r.workbook
  arranged : r.workbook.Arranged (r.Exempt fun _ => False)
  changed : r.workbook.changed = ∅
  attended : ∀ p, r.workbook.isFormula p = true →
    r.Told p ∨ r.workbook.Reads p p ∨ r.workbook.Settled p

variable {w : Workbook} {r : Round} {p : Position}

/-- A turn without an evaluation. -/
theorem Attended.begin (attended : w.Attended r) (idle : p ∉ r.due) : w.Attended (r.begin p) where
  sources := attended.sources
  arranged := by
    have same : r.turn p = r.begin p :=
      if_neg fun found => idle (Std.ExtTreeSet.contains_iff_mem.mp found)
    rw [← same]
    exact Round.arranged_turn attended.arranged p
  changed := attended.changed
  attended q formula := by
    refine (attended.attended q formula).imp (fun told => ?_) id
    rcases told with dirty | ⟨waits, due⟩
    · exact .inl dirty
    · exact .inr ⟨PositionSet.mem_erase.mpr ⟨fun here => idle (here ▸ due), waits⟩, due⟩

/-- A turn with an evaluation. -/
theorem Attended.evaluate (attended : w.Attended r) (grounded : w.Grounded)
    (formula : w.isFormula p = true) (due : p ∈ r.due) (apart : r.workbook.ReadsApart)
    (apart' : (r.turn p).workbook.ReadsApart)
    (signs : r.workbook.SignsKept (r.turn p).workbook p) : w.Attended (r.turn p) := by
  have turn : r.turn p = (r.begin p).evaluate p :=
    if_pos (Std.ExtTreeSet.contains_iff_mem.mpr due)
  have arranged := Round.arranged_turn attended.arranged p
  rw [turn] at apart' signs arranged ⊢
  have sources : SameSources r.workbook ((r.begin p).note p).workbook :=
    (r.begin p).sameSources_note p
  have delivers := Round.delivers_publish (r := (r.begin p).note p)
    (grounded.of_sources (attended.sources.trans sources))
    ((Round.arranged_begin attended.arranged p).of_sources sources rfl)
    (fun waits => (PositionSet.mem_erase.mp waits).1 rfl)
    (by rwa [sources.isFormula, attended.sources.isFormula]) (r.workbook.compute p).outcome signs
  refine ⟨attended.sources.trans (sources.trans delivers.sources), arranged,
    delivers.changed.trans attended.changed, fun q typed => ?_⟩
  by_cases here : q = p
  · subst here
    rcases delivers.own with told | same | ⟨u, reads, own | ⟨zone, inside, active⟩⟩
    · exact .inl told
    · refine .inr (.inr ?_)
      unfold Settled
      rw [show ((r.begin q).evaluate q).workbook.compute q = r.workbook.compute q from same]
      exact delivers.published
    · exact .inr (.inl (delivers.sources.reads_iff.mpr (own ▸ reads)))
    · -- The formula would read a zone of its own.
      rcases active with before | after
      · rw [apart q u zone reads before] at inside
        contradiction
      · rw [apart' q u zone (delivers.sources.reads_iff.mpr reads) after] at inside
        contradiction
  · have typed' : r.workbook.isFormula q = true := (delivers.sources.isFormula q).symm.trans typed
    rcases attended.attended q typed' with told | own | settled
    · refine .inl (delivers.told q ?_)
      rcases told with dirty | ⟨waits, due⟩
      · exact .inl dirty
      · exact .inr ⟨PositionSet.mem_erase.mpr ⟨here, waits⟩, due⟩
    · exact .inr (.inl (delivers.sources.reads_iff.mpr own))
    · exact (delivers.others q here typed').imp id fun still => .inr (still.settled settled)

/-- The start of a round without cycles. -/
theorem Watched.attended_opening (watched : w.Watched) (arranged : w.Arranged (· ∈ w.dirty))
    (acyclic : w.plan.cyclic = []) : w.Attended (w.opening w.plan) := by
  have opened := arranged_opening arranged
  have start : w.opening w.plan = ⟨w.unmarked, .ofList w.plan.order compare, w.due⟩ := by
    rw [opening, acyclic]
    rfl
  rw [start] at opened ⊢
  refine ⟨w.sameSources_unmarked, opened, rfl, fun p formula => ?_⟩
  refine (watched p formula).imp (fun due => .inr ⟨?_, due⟩) id
  rcases w.orders_plan.covers p (mem_vertices_of_mem_due due) with ordered | cyclic
  · exact PositionSet.mem_ofList.mpr ordered
  · rw [acyclic] at cyclic
    contradiction

/-- The turns of a steady round. -/
theorem Watched.attended_turns (watched : w.Watched) (grounded : w.Grounded)
    (arranged : w.Arranged (· ∈ w.dirty)) (steady : w.Steady) (before : List Position)
    (upTo : before <+: w.plan.order) :
    w.Attended (before.foldl Round.turn (w.opening w.plan)) := by
  induction before using List.reverseRecOn with
  | nil => exact watched.attended_opening arranged steady.acyclic
  | append_singleton before p ih =>
    have earlier := (List.prefix_append before [p]).trans upTo
    have attended := ih earlier
    have signs := steady.signs before p upTo
    have apart' := steady.apart _ upTo
    rw [List.foldl_append, List.foldl_cons, List.foldl_nil] at signs apart' ⊢
    by_cases due : p ∈ (before.foldl Round.turn (w.opening w.plan)).due
    · have scheduled := w.orders_plan.inside p (upTo.subset (by simp))
      exact attended.evaluate grounded (isFormula_of_mem_vertices scheduled) due
        (steady.apart before earlier) apart' signs
    · have turn : (before.foldl Round.turn (w.opening w.plan)).turn p =
          (before.foldl Round.turn (w.opening w.plan)).begin p :=
        if_neg fun found => due (Std.ExtTreeSet.contains_iff_mem.mp found)
      rw [turn]
      exact attended.begin due

/-- After a steady round every formula is dirty or settled, or it reads its own cell. -/
theorem Watched.recalculateOnce (watched : w.Watched) (grounded : w.Grounded)
    (arranged : w.Arranged (· ∈ w.dirty)) (steady : w.Steady) : w.recalculateOnce.Watched := by
  unfold Workbook.recalculateOnce
  split
  · rename_i idle
    intro p formula
    refine .inr ((watched p formula).resolve_left fun due => ?_)
    rw [Std.ExtTreeSet.isEmpty_iff.mp idle] at due
    exact Std.ExtTreeSet.not_mem_empty due
  · have attended := watched.attended_turns grounded arranged steady w.plan.order
      (List.prefix_refl _)
    intro p formula
    refine (attended.attended p formula).imp (fun told => mem_due.mpr ⟨.inl ?_, formula⟩) id
    exact told.resolve_right fun waiting => w.not_mem_pending_round p waiting.1

/-- Where nothing is marked a watched formula is settled or reads its own cell. -/
theorem Watched.settled (watched : w.Watched) (unmarked : w.Unmarked)
    (formula : w.isFormula p = true) : w.Reads p p ∨ w.Settled p :=
  (watched p formula).resolve_left (not_mem_due_of_unmarked unmarked.1 unmarked.2)

/-- Steady rounds end with nothing marked and every formula watched. -/
theorem Watched.recalculateWithin (rounds : Nat) (watched : w.Watched) (grounded : w.Grounded)
    (arranged : w.Arranged (· ∈ w.dirty)) (steady : w.SteadyWithin rounds) :
    (w.recalculateWithin rounds).Unmarked ∧ (w.recalculateWithin rounds).Watched := by
  induction rounds generalizing w with
  | zero =>
    exact ⟨⟨rfl, rfl⟩, fun p formula => .inr (watched.settled steady formula)⟩
  | succ rounds ih =>
    unfold Workbook.recalculateWithin
    split
    · rename_i idle
      exact ⟨unmarked_iff.mpr idle, watched⟩
    · rename_i busy
      rcases steady with unmarked | ⟨steady, rest⟩
      · rw [unmarked.1, unmarked.2] at busy
        exact absurd rfl busy
      · exact ih (watched.recalculateOnce grounded arranged steady)
          (grounded.of_sources w.sameSources_recalculateOnce)
          ((arranged_recalculateOnce arranged).mono fun _ _ never => never.elim) rest

/-- A steady recalculation ends with nothing marked and every formula watched. -/
theorem Watched.recalculate (watched : w.Watched) (grounded : w.Grounded)
    (arranged : w.Arranged (· ∈ w.dirty)) (steady : w.RecalculatesSteadily) :
    w.recalculate.Unmarked ∧ w.recalculate.Watched :=
  watched.recalculateWithin _ grounded arranged steady

end Workbook

end Spreadsheet
