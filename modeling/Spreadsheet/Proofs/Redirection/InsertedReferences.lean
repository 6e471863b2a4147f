import Spreadsheet.Proofs.Redirection.DeletedReferences

/-!
# References and inserted lines

Lines that are inserted and deleted again leave every range what it was. A cell reference stays what
it was unless the insertion moves its cell past the last row or column that a reference can name.
-/
namespace Spreadsheet

/-- The insertion of so many lines before an index. -/
def Shift.ofGap (direction : Direction) (sheet : SheetId) (gap : Nat × Nat) : Shift :=
  ⟨.insertion, direction, sheet, gap.1, gap.2⟩

/-- Where a line ends up when lines are inserted. -/
def openGap (gap : Nat × Nat) (line : Nat) : Nat := if gap.1 ≤ line then line + gap.2 else line

/-- A line that made room for others is where it was once they are deleted. -/
theorem closeRun_openGap (gap : Nat × Nat) (line : Nat) :
    closeRun gap (openGap gap line) = some line := by
  unfold openGap
  split
  · rw [closeRun_of_le (by omega), Nat.add_sub_cancel]
  · exact closeRun_of_lt (by omega)

/-- Lines keep their order when others are inserted. -/
theorem openGap_le_openGap (gap : Nat × Nat) {i j : Nat} (ordered : i ≤ j) :
    openGap gap i ≤ openGap gap j := by
  unfold openGap
  split <;> split <;> omega

/-- The row or column of an axis ends up elsewhere when others are inserted. -/
def Axis.parted (gap : Nat × Nat) (a : Axis) : Axis := { a with index := openGap gap a.index }

/-- Ends in order are in order after an insertion. -/
theorem InOrder.parted {first last : Option Axis} (ordered : InOrder first last) (gap : Nat × Nat) :
    InOrder (first.map (Axis.parted gap)) (last.map (Axis.parted gap)) := by
  intro a given b other
  obtain ⟨a, rfl, rfl⟩ := Option.map_eq_some_iff.mp given
  obtain ⟨b, rfl, rfl⟩ := Option.map_eq_some_iff.mp other
  exact openGap_le_openGap gap (ordered a rfl b rfl)

namespace Shift

variable {direction : Direction} {sheet : SheetId} {gap : Nat × Nat} {first last : Option Axis}

/-- An insertion before a row is one of rows, that before a column one of columns. -/
@[simp] theorem direction_ofGap : (ofGap direction sheet gap).direction = direction := rfl

/-- Where an insertion moves a line. -/
theorem mapIndex_ofGap (line : Nat) :
    (ofGap direction sheet gap).mapIndex line =
      some (if gap.1 ≤ line then min (line + gap.2) lastIndex else line) :=
  rfl

/-- An insertion moves both ends of a range. A missing one stays missing. -/
theorem mapEnds_ofGap (firstFar : ∀ a ∈ first, a.index + gap.2 ≤ lastIndex)
    (lastFar : ∀ b ∈ last, b.index + gap.2 ≤ lastIndex) :
    (ofGap direction sheet gap).mapEnds first last =
      some (first.map (Axis.parted gap), last.map (Axis.parted gap)) := by
  have bounded : ∀ i j, (ofGap direction sheet gap).mapRun i j =
      some (if gap.1 ≤ i then min (i + gap.2) lastIndex else i,
        if gap.1 ≤ j then min (j + gap.2) lastIndex else j) := fun _ _ => rfl
  cases first with
  | none =>
    cases last with
    | none => rfl
    | some b =>
      simp only [mapEnds, bounded, Option.map_none, Option.map_some, Option.getD_some,
        Nat.min_eq_left (lastFar b rfl)]
      rfl
  | some a =>
    cases last with
    | none =>
      simp only [mapEnds, bounded, Option.map_none, Option.map_some, Option.getD_some,
        Nat.min_eq_left (firstFar a rfl)]
      rfl
    | some b =>
      simp only [mapEnds, bounded, Option.map_some, Option.getD_some,
        Nat.min_eq_left (firstFar a rfl), Nat.min_eq_left (lastFar b rfl)]
      rfl

/-- Both ends of a range are what they were once the inserted lines are deleted. -/
theorem mapEnds_ofRun_parted (bounded : gap.1 + gap.2 ≤ lastIndex) (ordered : InOrder first last) :
    (ofRun direction sheet gap).mapEnds (first.map (Axis.parted gap)) (last.map (Axis.parted gap)) =
      some (first, last) := by
  have kept : ∀ line, ¬(gap.1 ≤ openGap gap line ∧ openGap gap line < gap.1 + gap.2) := by
    intro line
    unfold openGap
    split <;> omega
  rw [mapEnds_ofRun bounded, mapRun_ofRun bounded]
  cases first with
  | none =>
    cases last with
    | none =>
      rw [if_neg (by simp; omega)]
      rfl
    | some b =>
      have last := kept b.index
      rw [if_neg (by simp [Axis.parted]; omega)]
      simp [Axis.parted, closeRun_openGap]
  | some a =>
    cases last with
    | none =>
      rw [if_neg (by simp; omega)]
      simp [Axis.parted, closeRun_openGap]
    | some b =>
      have between := openGap_le_openGap gap (ordered a rfl b rfl)
      have last := kept b.index
      rw [if_neg (by simp [Axis.parted]; omega)]
      simp [Axis.parted, closeRun_openGap]

end Shift

namespace Reference

variable {direction : Direction} {sheet : SheetId} {gap : Nat × Nat} {target : Reference}

/-- A cell reference is moved past the last row or column that a reference can name. -/
def RunsOff (direction : Direction) (gap : Nat × Nat) : Reference → Prop
  | .cell _ c => gap.1 ≤ c.line direction ∧ direction.last < c.line direction + gap.2
  | .range _ _ _ => False

/-- The ends of a range are so far from the end of the numbering that an insertion does not reach
it. -/
def FarFromEnd (direction : Direction) (count : Nat) : Reference → Prop
  | .cell _ _ => True
  | .range _ start stop =>
    (∀ a ∈ start.axis direction, a.index + count ≤ lastIndex) ∧
      ∀ b ∈ stop.axis direction, b.index + count ≤ lastIndex

/-- No reference runs off where nothing is inserted. -/
theorem not_runsOff_zero (target : Reference) (direction : Direction) (index : Nat) :
    ¬target.RunsOff direction (index, 0) := by
  cases target with
  | cell named c => exact fun off => absurd (c.line_le_last direction) (Nat.not_le.mpr off.2)
  | range named start stop => exact id

/-- Once inserted lines are deleted, a reference is what it was exactly if it did not run off. -/
theorem shifted_ofGap_ofRun_iff (bounded : gap.1 + gap.2 ≤ lastIndex) (ordered : target.Ordered)
    (far : target.FarFromEnd direction gap.2) :
    (target.shifted (Shift.ofGap direction sheet gap)).bind
        (shifted (Shift.ofRun direction sheet gap)) = some target ↔
      ¬target.RunsOff direction gap := by
  cases target with
  | cell named c =>
    have inside := c.line_le_last direction
    have grid : direction.last < lastIndex := by cases direction <;> decide
    have opened := shifted_cell (Shift.ofGap direction sheet gap) named c
    rw [Shift.mapIndex_ofGap, Shift.direction_ofGap, Option.map_some] at opened
    have closed := fun line => shifted_cell (Shift.ofRun direction sheet gap) named
      (c.withLine direction line)
    simp only [Shift.direction_ofRun, Shift.mapIndex_ofRun bounded, Coordinate.line_withLine,
      Coordinate.withLine_withLine] at closed
    rw [opened, Option.bind_some, closed, Option.map_eq_some_iff]
    simp only [cell.injEq, true_and, Coordinate.withLine_eq_self_iff, closeRun_eq_some_iff]
    unfold RunsOff
    constructor
    · rintro ⟨line, moved, same⟩
      split at moved <;> omega
    · intro stays
      refine ⟨c.line direction, ?_, Nat.min_eq_left inside⟩
      split <;> omega
  | range named start stop =>
    have inOrder : InOrder (start.axis direction) (stop.axis direction) := ordered.inOrder direction
    have opened := shifted_range (Shift.ofGap direction sheet gap) named start stop
    rw [Shift.direction_ofGap, Shift.mapEnds_ofGap far.1 far.2, Option.map_some,
      between_withAxis ordered (inOrder.parted gap)] at opened
    have closed := shifted_range (Shift.ofRun direction sheet gap) named
      (start.withAxis direction ((start.axis direction).map (Axis.parted gap)))
      (stop.withAxis direction ((stop.axis direction).map (Axis.parted gap)))
    simp only [Shift.direction_ofRun, Corner.axis_withAxis, Function.update_self,
      Shift.mapEnds_ofRun_parted bounded inOrder, Option.map_some, Corner.withAxis_withAxis,
      Corner.withAxis_self] at closed
    rw [opened, Option.bind_some, closed, between_of_ordered ordered.1 ordered.2]
    exact iff_of_true rfl id

end Reference

end Spreadsheet
