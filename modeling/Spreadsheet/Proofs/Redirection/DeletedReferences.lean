import Spreadsheet.Proofs.Address.Zones
import Spreadsheet.Proofs.Redirection.Deletions
import Spreadsheet.Proofs.Redirection.OrderedReferences

/-!
# References and deleted lines

When lines are deleted, a reference leads to what is left of the lines it led to. One direction at a
time, its two ends close up with the lines between them; the other direction stays.
-/
namespace Spreadsheet

/-- The deletion of a run of lines. -/
def Shift.ofRun (direction : Direction) (sheet : SheetId) (run : Nat × Nat) : Shift :=
  ⟨.deletion, direction, sheet, run.1, run.2⟩

/-- The row or column of a position. -/
def Position.line (p : Position) : Direction → Nat
  | .rows => p.row
  | .columns => p.column

/-! ### Ends -/

/-- A line lies between two ends that lie on a sheet of so many lines. A missing end at the start is
the first line, one at the end the last. -/
def Spans (ends : Option Axis × Option Axis) (lines line : Nat) : Prop :=
  (ends.1.map Axis.index).getD 0 ≤ line ∧ line ≤ (ends.2.map Axis.index).getD (lines - 1) ∧
    (ends.2.map Axis.index).getD (lines - 1) < lines

namespace Shift

variable {direction : Direction} {sheet : SheetId} {run : Nat × Nat} {lines new : Nat}
  {ends : Option Axis × Option Axis}

/-- The deletion of a run of rows is one of rows, that of a run of columns one of columns. -/
@[simp] theorem direction_ofRun : (ofRun direction sheet run).direction = direction := rfl

/-- A deletion within the numbering closes up the lines. -/
theorem mapIndex_ofRun (bounded : run.1 + run.2 ≤ lastIndex) (line : Nat) :
    (ofRun direction sheet run).mapIndex line = closeRun run line := by
  show (if line < run.1 then some line
    else if min (run.1 + run.2) lastIndex ≤ line then some (line - run.2) else none) = _
  rw [Nat.min_eq_left bounded]
  rfl

/-- A deletion within the numbering takes a run of lines away that lies in it. -/
theorem mapRun_ofRun (bounded : run.1 + run.2 ≤ lastIndex) (first last : Nat) :
    (ofRun direction sheet run).mapRun first last =
      if run.1 ≤ first ∧ last < run.1 + run.2 then none
      else some ((closeRun run first).getD run.1, (closeRun run last).getD (run.1 - 1)) := by
  have index : ∀ line, (ofRun direction sheet run).mapIndex line = closeRun run line :=
    mapIndex_ofRun bounded
  rw [← index, ← index]
  show (if run.1 ≤ first ∧ last < min (run.1 + run.2) lastIndex then none else some _) = _
  rw [Nat.min_eq_left bounded]
  rfl

/-- Where a line ends up, one of the run being replaced by another line. -/
theorem closeRun_getD (run : Nat × Nat) (line other : Nat) :
    line < run.1 ∧ (closeRun run line).getD other = line ∨
      run.1 + run.2 ≤ line ∧ (closeRun run line).getD other = line - run.2 ∨
        run.1 ≤ line ∧ line < run.1 + run.2 ∧ (closeRun run line).getD other = other := by
  by_cases before : line < run.1
  · exact .inl ⟨before, by rw [closeRun_of_lt before]; rfl⟩
  · by_cases behind : run.1 + run.2 ≤ line
    · exact .inr (.inl ⟨behind, by rw [closeRun_of_le behind]; rfl⟩)
    · have first : run.1 ≤ line := Nat.le_of_not_lt before
      have last : line < run.1 + run.2 := Nat.lt_of_not_le behind
      exact .inr (.inr ⟨first, last, by rw [closeRun_of_mem first last]; rfl⟩)

/-- A missing end stays missing, any other becomes the end of what is left of the run. -/
theorem mapEnds_ofRun (bounded : run.1 + run.2 ≤ lastIndex) (first last : Option Axis) :
    (ofRun direction sheet run).mapEnds first last =
      ((ofRun direction sheet run).mapRun ((first.map Axis.index).getD 0)
        ((last.map Axis.index).getD lastIndex)).map fun left =>
          (first.map fun a => { a with index := left.1 }, last.map fun a => { a with index := left.2 }) := by
  have whole : ¬(run.1 ≤ 0 ∧ lastIndex < run.1 + run.2) := fun both => by omega
  cases first with
  | none =>
    cases last with
    | none =>
      show some (none, none) = Option.map _ ((ofRun direction sheet run).mapRun 0 lastIndex)
      rw [mapRun_ofRun bounded, if_neg whole]
      rfl
    | some b => exact Option.map_eq_bind.symm
  | some a => exact Option.map_eq_bind.symm

/-- Two equal ends, those of a cell, become what their line becomes. -/
theorem mapEnds_ofRun_self (bounded : run.1 + run.2 ≤ lastIndex) (a : Axis) :
    (ofRun direction sheet run).mapEnds (some a) (some a) =
      (closeRun run a.index).map fun line =>
        (some { a with index := line }, some { a with index := line }) := by
  rw [mapEnds_ofRun bounded, mapRun_ofRun bounded]
  simp only [Option.map_some, Option.getD_some]
  by_cases gone : run.1 ≤ a.index ∧ a.index < run.1 + run.2
  · rw [if_pos gone, closeRun_of_mem gone.1 gone.2]
    rfl
  · rw [if_neg gone]
    by_cases before : a.index < run.1
    · rw [closeRun_of_lt before]
      rfl
    · rw [closeRun_of_le (by omega)]
      rfl

/-- A line lies between two ends if it lies between their lines and on the sheet with the last. -/
theorem spans_iff (bounded : lines ≤ lastIndex) (line : Nat) :
    Spans ends lines line ↔
      (ends.1.map Axis.index).getD 0 ≤ line ∧ line ≤ (ends.2.map Axis.index).getD lastIndex ∧
        line < lines ∧ ∀ b ∈ ends.2, b.index < lines := by
  obtain ⟨first, last⟩ := ends
  unfold Spans
  cases last with
  | none =>
    simp only [Option.map_none, Option.getD_none, Option.not_mem_none, false_imp_iff, implies_true,
      and_true]
    omega
  | some b =>
    simp only [Option.map_some, Option.getD_some, Option.mem_def, Option.some.injEq, forall_eq']
    omega

/-- What lies between two ends after a deletion is what is left of the lines between them. -/
theorem spans_mapEnds (fits : run.1 + run.2 ≤ lines) (bounded : lines ≤ lastIndex) :
    (∃ ends', (ofRun direction sheet run).mapEnds ends.1 ends.2 = some ends' ∧
        Spans ends' (lines - run.2) new) ↔
      ∃ line, Spans ends lines line ∧ closeRun run line = some new := by
  obtain ⟨first, last⟩ := ends
  have within : run.1 + run.2 ≤ lastIndex := fits.trans bounded
  have shorter : lines - run.2 ≤ lastIndex := (Nat.sub_le _ _).trans bounded
  have lower := closeRun_getD run ((first.map Axis.index).getD 0) run.1
  have upper := closeRun_getD run ((last.map Axis.index).getD lastIndex) (run.1 - 1)
  simp only [mapEnds_ofRun within, mapRun_ofRun within, Option.map_eq_some_iff,
    Option.ite_none_left_eq_some, Option.some.injEq, spans_iff bounded, closeRun_eq_some_iff]
  constructor
  · rintro ⟨_, ⟨_, ⟨partly, rfl⟩, rfl⟩, spanned⟩
    rw [spans_iff shorter] at spanned
    -- A line in front of the run was there before, any other moved up.
    by_cases front : new < run.1
    · refine ⟨new, ?_, .inl ⟨front, rfl⟩⟩
      cases first <;> cases last <;> simp at * <;> omega
    · refine ⟨new + run.2, ?_, .inr ⟨by omega, by omega⟩⟩
      cases first <;> cases last <;> simp at * <;> omega
  · rintro ⟨line, spanned, moved⟩
    refine ⟨_, ⟨_, ⟨?_, rfl⟩, rfl⟩, (spans_iff shorter _).mpr ?_⟩
    · omega
    · cases first <;> cases last <;> simp at * <;> omega

/-- Ends in order are in order after a deletion. -/
theorem inOrder_mapEnds (bounded : run.1 + run.2 ≤ lastIndex) {first last : Option Axis}
    (ordered : InOrder first last)
    (found : (ofRun direction sheet run).mapEnds first last = some ends) : InOrder ends.1 ends.2 := by
  rw [mapEnds_ofRun bounded, mapRun_ofRun bounded] at found
  obtain ⟨left, there, rfl⟩ := Option.map_eq_some_iff.mp found
  intro a given b other
  obtain ⟨a, rfl, rfl⟩ := Option.map_eq_some_iff.mp given
  obtain ⟨b, rfl, rfl⟩ := Option.map_eq_some_iff.mp other
  have before : a.index ≤ b.index := ordered a rfl b rfl
  have lower := closeRun_getD run a.index run.1
  have upper := closeRun_getD run b.index (run.1 - 1)
  simp only [Option.map_some, Option.getD_some, Option.ite_none_left_eq_some,
    Option.some.injEq] at there
  obtain ⟨partly, rfl⟩ := there
  dsimp only
  omega

end Shift

/-! ### Rows or columns of references -/

/-- The last row or column that a cell reference can name. -/
def Direction.last : Direction → Nat
  | .rows => lastRow
  | .columns => lastColumn

namespace Coordinate

/-- The row or column of a coordinate. -/
def line (c : Coordinate) : Direction → Nat
  | .rows => c.row
  | .columns => c.column

/-- The row or column of a coordinate with its dollar sign. -/
def axis (c : Coordinate) : Direction → Axis
  | .rows => ⟨c.row, c.rowFixed⟩
  | .columns => ⟨c.column, c.columnFixed⟩

/-- The coordinate in another row or column, cut to the grid. -/
def withLine (c : Coordinate) (direction : Direction) (line : Nat) : Coordinate :=
  match direction with
  | .rows => .clamp line c.column c.rowFixed c.columnFixed
  | .columns => .clamp c.row line c.rowFixed c.columnFixed

/-- A coordinate lies on the grid. -/
theorem line_le_last (c : Coordinate) (direction : Direction) : c.line direction ≤ direction.last := by
  cases direction
  · exact c.row_le
  · exact c.column_le

/-- Another row or column keeps the dollar signs, and what is given in the other direction. -/
theorem axis_withLine (c : Coordinate) (direction : Direction) (line : Nat) :
    (c.withLine direction line).axis =
      Function.update c.axis direction { c.axis direction with index := min line direction.last } := by
  funext other
  have rows := c.row_le
  have columns := c.column_le
  cases direction <;> cases other <;>
    simp [withLine, axis, clamp, Direction.last, Nat.min_eq_left rows, Nat.min_eq_left columns]

/-- The other row or column, as far as the grid reaches. -/
theorem line_withLine (c : Coordinate) (direction : Direction) (line : Nat) :
    (c.withLine direction line).line direction = min line direction.last := by
  cases direction <;> rfl

/-- Only the last row or column counts. -/
theorem withLine_withLine (c : Coordinate) (direction : Direction) (line other : Nat) :
    (c.withLine direction line).withLine direction other = c.withLine direction other := by
  have rows := Nat.min_eq_left c.row_le
  have columns := Nat.min_eq_left c.column_le
  cases direction <;> simp [withLine, clamp, rows, columns]

/-- A coordinate stays what it is in its own row or column only. -/
theorem withLine_eq_self_iff {c : Coordinate} {direction : Direction} {line : Nat} :
    c.withLine direction line = c ↔ min line direction.last = c.line direction := by
  have rows := Nat.min_eq_left c.row_le
  have columns := Nat.min_eq_left c.column_le
  obtain ⟨row, column, rowFixed, columnFixed, row_le, column_le⟩ := c
  cases direction <;> simp_all [withLine, clamp, Coordinate.line, Direction.last]

end Coordinate

namespace Corner

/-- The row or column of a corner, if it is given. -/
def axis (c : Corner) : Direction → Option Axis
  | .rows => c.row
  | .columns => c.column

/-- The corner with another row or column. -/
def withAxis (c : Corner) (direction : Direction) (axis : Option Axis) : Corner :=
  match direction with
  | .rows => { c with row := axis }
  | .columns => { c with column := axis }

/-- Another row or column leaves the other direction. -/
theorem axis_withAxis (c : Corner) (direction : Direction) (a : Option Axis) :
    (c.withAxis direction a).axis = Function.update c.axis direction a := by
  funext other
  cases direction <;> cases other <;> rfl

/-- The corner with its own row or column. -/
theorem withAxis_self (c : Corner) (direction : Direction) :
    c.withAxis direction (c.axis direction) = c := by
  cases direction <;> rfl

/-- Only the last row or column counts. -/
theorem withAxis_withAxis (c : Corner) (direction : Direction) (a b : Option Axis) :
    (c.withAxis direction a).withAxis direction b = c.withAxis direction b := by
  cases direction <;> rfl

end Corner

/-! ### References -/

/-- A sheet has room for a zone that ends on it. -/
theorem Sheet.hasRoomFor_iff {s : Sheet} {z : Zone} :
    s.hasRoomFor z = true ↔ z.bottom < s.rows ∧ z.right < s.columns := by
  simp [Sheet.hasRoomFor, Sheet.inBounds]

namespace Reference

/-- The two ends of a reference in one direction, those of a cell being the same. -/
def ends (target : Reference) (direction : Direction) : Option Axis × Option Axis :=
  match target with
  | .cell _ c => (some (c.axis direction), some (c.axis direction))
  | .range _ start stop => (start.axis direction, stop.axis direction)

/-- What a shift makes of a cell reference. -/
theorem shifted_cell (s : Shift) (named : Option String) (c : Coordinate) :
    (cell named c).shifted s =
      (s.mapIndex (c.line s.direction)).map fun line => .cell named (c.withLine s.direction line) := by
  obtain ⟨change, direction, sheet, start, count⟩ := s
  cases direction <;> exact Option.map_map ..

/-- What a shift makes of a range. -/
theorem shifted_range (s : Shift) (named : Option String) (start stop : Corner) :
    (range named start stop).shifted s =
      (s.mapEnds (start.axis s.direction) (stop.axis s.direction)).map fun left =>
        between named (start.withAxis s.direction left.1) (stop.withAxis s.direction left.2) := by
  obtain ⟨change, direction, sheet, first, count⟩ := s
  cases direction <;> rfl

/-- A range in order stays the one between its corners when its ends in one direction become others
that are in order. -/
theorem between_withAxis {named : Option String} {start stop : Corner} {direction : Direction}
    {left : Option Axis × Option Axis} (ordered : (range named start stop).Ordered)
    (inOrder : InOrder left.1 left.2) :
    between named (start.withAxis direction left.1) (stop.withAxis direction left.2) =
      .range named (start.withAxis direction left.1) (stop.withAxis direction left.2) := by
  cases direction
  · exact between_of_ordered inOrder ordered.2
  · exact between_of_ordered ordered.1 inOrder

/-- A row and a column lie between the ends of a reference on a sheet of so many rows and columns. -/
def Covers (target : Reference) (lines line : Direction → Nat) : Prop :=
  ∀ direction, Spans (target.ends direction) (lines direction) (line direction)

variable {target new : Reference} {direction : Direction} {sheet : SheetId} {run : Nat × Nat}
  {lines line : Direction → Nat}

/-- The ends of a reference in order are in order. -/
theorem Ordered.inOrder (ordered : target.Ordered) (direction : Direction) :
    InOrder (target.ends direction).1 (target.ends direction).2 := by
  cases target with
  | cell named c =>
    cases direction <;> rintro _ ⟨⟩ _ ⟨⟩ <;> exact Nat.le_refl _
  | range named start stop =>
    cases direction
    · exact ordered.1
    · exact ordered.2

/-- What a deletion makes of a reference in order: its ends close up in that direction and stay in the
other. -/
theorem shifted_ofRun (bounded : run.1 + run.2 ≤ lastIndex) (ordered : target.Ordered) :
    match (Shift.ofRun direction sheet run).mapEnds (target.ends direction).1
        (target.ends direction).2 with
    | none => target.shifted (Shift.ofRun direction sheet run) = none
    | some left => ∃ new, target.shifted (Shift.ofRun direction sheet run) = some new ∧
        new.ends = Function.update target.ends direction left := by
  cases target with
  | cell named c =>
    have moved : (cell named c).shifted (Shift.ofRun direction sheet run) =
        (closeRun run (c.line direction)).map fun line => .cell named (c.withLine direction line) := by
      have closed := shifted_cell (Shift.ofRun direction sheet run) named c
      rwa [Shift.mapIndex_ofRun bounded] at closed
    have index : (c.axis direction).index = c.line direction := by cases direction <;> rfl
    rw [moved, ends, Shift.mapEnds_ofRun_self bounded, index]
    cases found : closeRun run (c.line direction) with
    | none => rfl
    | some line =>
      have small := (closeRun_le found).trans (c.line_le_last direction)
      refine ⟨_, rfl, funext fun other => ?_⟩
      rw [ends, Coordinate.axis_withLine, Nat.min_eq_left small]
      by_cases same : other = direction
      · subst same
        simp
      · simp [ends, Function.update_of_ne same]
  | range named start stop =>
    have moved := shifted_range (Shift.ofRun direction sheet run) named start stop
    rw [moved, ends]
    cases found : (Shift.ofRun direction sheet run).mapEnds (start.axis direction)
        (stop.axis direction) with
    | none =>
      show Option.map _ ((Shift.ofRun direction sheet run).mapEnds (start.axis direction)
        (stop.axis direction)) = none
      rw [found]
      rfl
    | some left =>
      have inOrder := Shift.inOrder_mapEnds bounded (ordered.inOrder direction) found
      refine ⟨.range named (start.withAxis direction left.1) (stop.withAxis direction left.2), ?_,
        funext fun other => ?_⟩
      · rw [← between_withAxis ordered inOrder]
        show Option.map _ ((Shift.ofRun direction sheet run).mapEnds (start.axis direction)
          (stop.axis direction)) = _
        rw [found]
        rfl
      · rw [ends, Corner.axis_withAxis, Corner.axis_withAxis]
        by_cases same : other = direction
        · subst same
          simp
        · simp [ends, Function.update_of_ne same]

/-- A place is covered if its lines in one direction and in the other are. -/
theorem covers_update_iff (i : Nat) :
    target.Covers lines (Function.update line direction i) ↔
      Spans (target.ends direction) (lines direction) i ∧
        ∀ other, other ≠ direction → Spans (target.ends other) (lines other) (line other) := by
  constructor
  · intro covers
    refine ⟨by simpa using covers direction, fun other apart => ?_⟩
    simpa [Function.update_of_ne apart] using covers other
  · rintro ⟨own, others⟩ other
    by_cases same : other = direction
    · subst same
      simpa using own
    · simpa [Function.update_of_ne same] using others other same

/-- After a deletion a reference covers what is left of the places it covered. -/
theorem covers_shifted (ordered : target.Ordered) (fits : run.1 + run.2 ≤ lines direction)
    (bounded : lines direction ≤ lastIndex) :
    (∃ new, target.shifted (Shift.ofRun direction sheet run) = some new ∧
        new.Covers (Function.update lines direction (lines direction - run.2)) line) ↔
      ∃ i, target.Covers lines (Function.update line direction i) ∧
        closeRun run i = some (line direction) := by
  have shape : match (Shift.ofRun direction sheet run).mapEnds (target.ends direction).1
      (target.ends direction).2 with
    | none => target.shifted (Shift.ofRun direction sheet run) = none
    | some left => _ := shifted_ofRun (fits.trans bounded) ordered
  have kept : (∃ ends, (Shift.ofRun direction sheet run).mapEnds (target.ends direction).1
        (target.ends direction).2 = some ends ∧
          Spans ends (lines direction - run.2) (line direction)) ↔ _ :=
    Shift.spans_mapEnds fits bounded
  simp only [covers_update_iff, and_right_comm (b := ∀ _, _), exists_and_right, ← kept]
  cases found : (Shift.ofRun direction sheet run).mapEnds (target.ends direction).1
      (target.ends direction).2 with
  | none =>
    rw [found] at shape
    simp [shape]
  | some left =>
    rw [found] at shape
    obtain ⟨new, moved, becomes⟩ := shape
    have covered : new.Covers (Function.update lines direction (lines direction - run.2))
        (Function.update line direction (line direction)) ↔ _ := covers_update_iff (line direction)
    rw [Function.update_eq_self] at covered
    simp only [moved, Option.some.injEq, exists_eq_left', covered, becomes,
      Function.update_self]
    refine and_congr_right fun _ => forall_congr' fun other => imp_congr_right fun apart => ?_
    rw [Function.update_of_ne apart, Function.update_of_ne apart]

/-- What becomes of a reference when its sheet is shifted several times. -/
def followed (shifts : List Shift) (target : Reference) : Option Reference :=
  shifts.foldlM (fun target s => target.shifted s) target

/-- A reference follows the first shift and then the others. -/
theorem followed_cons (s : Shift) (shifts : List Shift) (target : Reference) :
    target.followed (s :: shifts) = (target.shifted s).bind (followed shifts) :=
  List.foldlM_cons

/-- After the deletion of runs a reference covers what is left of the places it covered. -/
theorem covers_followed {runs : List (Nat × Nat)} (ordered : target.Ordered)
    (fit : RunsFit (lines direction) runs) (bounded : lines direction ≤ lastIndex) :
    (∃ new, target.followed (runs.map (Shift.ofRun direction sheet)) = some new ∧
        new.Covers (Function.update lines direction (lines direction - runsLength runs)) line) ↔
      ∃ i, target.Covers lines (Function.update line direction i) ∧
        closeRuns runs i = some (line direction) := by
  induction runs generalizing target lines with
  | nil =>
    simp [followed, runsLength, closeRuns, Function.update_eq_self]
  | cons run rest ih =>
    obtain ⟨first, others⟩ := fit
    have step : ∀ mid, target.shifted (Shift.ofRun direction sheet run) = some mid →
        ((∃ new, mid.followed (rest.map (Shift.ofRun direction sheet)) = some new ∧
          new.Covers (Function.update lines direction
            (lines direction - runsLength (run :: rest))) line) ↔
          ∃ i, mid.Covers (Function.update lines direction (lines direction - run.2))
              (Function.update line direction i) ∧ closeRuns rest i = some (line direction)) := by
      intro mid moved
      have shorter : Function.update lines direction (lines direction - run.2) direction ≤
          lastIndex := by
        simpa using (Nat.sub_le _ _).trans bounded
      have next := ih (ordered_shifted moved) (by simpa using others) shorter
      simpa [runsLength, Nat.sub_sub] using next
    have once : ∀ i, (∃ new, target.shifted (Shift.ofRun direction sheet run) = some new ∧
        new.Covers (Function.update lines direction (lines direction - run.2))
          (Function.update line direction i)) ↔ _ := fun i => covers_shifted ordered first bounded
    simp only [Function.update_idem, Function.update_self] at once
    rw [List.map_cons, followed_cons]
    constructor
    · rintro ⟨new, found, covers⟩
      obtain ⟨mid, moved, further⟩ := Option.bind_eq_some_iff.mp found
      obtain ⟨i, covered, closed⟩ := (step mid moved).mp ⟨new, further, covers⟩
      obtain ⟨origin, before, moves⟩ := (once i).mp ⟨mid, moved, covered⟩
      exact ⟨origin, before, by rw [closeRuns_cons, moves, Option.bind_some, closed]⟩
    · rintro ⟨origin, before, closed⟩
      rw [closeRuns_cons] at closed
      obtain ⟨i, moves, closed⟩ := Option.bind_eq_some_iff.mp closed
      obtain ⟨mid, moved, covered⟩ := (once i).mpr ⟨origin, before, moves⟩
      obtain ⟨new, further, covers⟩ := (step mid moved).mpr ⟨i, covered, closed⟩
      exact ⟨new, by rw [moved, Option.bind_some, further], covers⟩

/-- A shift leaves the sheet that a reference names. -/
theorem sheet_shifted {s : Shift} (found : target.shifted s = some new) : new.sheet = target.sheet := by
  cases target with
  | cell named c =>
    obtain ⟨place, _, rfl⟩ := Option.map_eq_some_iff.mp found
    rfl
  | range named start stop =>
    unfold shifted at found
    dsimp only at found
    split at found
    · obtain ⟨left, _, rfl⟩ := Option.map_eq_some_iff.mp found
      rfl
    · obtain ⟨left, _, rfl⟩ := Option.map_eq_some_iff.mp found
      rfl

/-- Shifts leave the sheet that a reference names. -/
theorem sheet_followed {shifts : List Shift} (follows : target.followed shifts = some new) :
    new.sheet = target.sheet := by
  induction shifts generalizing target with
  | nil => rw [Option.some.inj follows]
  | cons s rest ih =>
    rw [followed_cons] at follows
    obtain ⟨mid, moved, further⟩ := Option.bind_eq_some_iff.mp follows
    exact (ih further).trans (sheet_shifted moved)

/-- A reference in order stays in order through shifts. -/
theorem ordered_followed {shifts : List Shift} (ordered : target.Ordered)
    (follows : target.followed shifts = some new) : new.Ordered := by
  induction shifts generalizing target with
  | nil =>
    rw [← Option.some.inj follows]
    exact ordered
  | cons s rest ih =>
    rw [followed_cons] at follows
    obtain ⟨mid, moved, further⟩ := Option.bind_eq_some_iff.mp follows
    exact ih (ordered_shifted moved) further

/-! ### Zones -/

/-- The ends of a reference in order span the lines between the smaller and the larger of them. -/
theorem spans_iff_between {first last : Option Axis} (ordered : InOrder first last) (lines line : Nat) :
    Spans (first, last) lines line ↔
      max ((first.map Axis.index).getD 0) ((last.map Axis.index).getD (lines - 1)) < lines ∧
        min ((first.map Axis.index).getD 0) ((last.map Axis.index).getD (lines - 1)) ≤ line ∧
          line ≤ max ((first.map Axis.index).getD 0) ((last.map Axis.index).getD (lines - 1)) := by
  unfold Spans
  cases first with
  | none =>
    simp only [Option.map_none, Option.getD_none]
    omega
  | some a =>
    cases last with
    | none =>
      simp only [Option.map_some, Option.map_none, Option.getD_some, Option.getD_none]
      omega
    | some b =>
      have before := ordered a rfl b rfl
      simp only [Option.map_some, Option.getD_some]
      omega

/-- The positions a reference in order covers are those of its zone, if the sheet holds that. -/
theorem covers_iff_contains (ordered : target.Ordered) (s : Sheet) (id : SheetId) (q : Position) :
    q.sheet = id ∧ target.Covers s.lines q.line ↔
      s.hasRoomFor (target.zone id s.rows s.columns) = true ∧
        (target.zone id s.rows s.columns).contains q = true := by
  have rows := spans_iff_between (ordered.inOrder .rows) s.rows q.row
  have columns := spans_iff_between (ordered.inOrder .columns) s.columns q.column
  have both : target.Covers s.lines q.line ↔
      Spans (target.ends .rows) s.rows q.row ∧ Spans (target.ends .columns) s.columns q.column :=
    ⟨fun covers => ⟨covers .rows, covers .columns⟩, fun spanned direction => by
      cases direction
      · exact spanned.1
      · exact spanned.2⟩
  rw [both, rows, columns, Zone.contains_iff, Sheet.hasRoomFor_iff]
  cases target with
  | cell named c =>
    dsimp only [ends, Coordinate.axis, zone, Zone.single, Zone.span, Option.map_some,
      Option.getD_some]
    tauto
  | range named start stop =>
    dsimp only [ends, Corner.axis, zone, Zone.span]
    tauto

end Reference

end Spreadsheet
