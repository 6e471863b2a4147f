import Spreadsheet.Proofs.Formula.Rectangular
import Spreadsheet.Proofs.Function.Rectangular
import Spreadsheet.Proofs.Workbook.Cells
import Spreadsheet.Workbook.Recalculation

/-!
# Outcomes that fit

A formula whose tree is rectangular has a rectangular value where everything it sees is rectangular.
What it comes to is then a single value or an array with rows and columns, and with formats of the
same extent. A formula is stuck only with an array whose only entry is an array without rows.
-/
namespace Spreadsheet

/-- Everything a formula sees is rectangular. -/
structure Surroundings.Rectangular (world : Surroundings) : Prop where
  value : ∀ p, (world.value p).Rectangular
  function : ∀ name f, world.function? name = some f → f.KeepsRectangular

namespace Surroundings

variable {world : Surroundings} {target : Reference}

/-- The values of a zone make a rectangular array. -/
theorem Rectangular.zoneValues (seen : world.Rectangular) (z : Zone) :
    (Value.array (world.zoneValues z)).Rectangular :=
  Value.rectangular_build (fun _ => Nat.succ_pos _) fun _ _ => seen.value _

/-- The values a reference covers make a rectangular array. -/
theorem Rectangular.block (seen : world.Rectangular) {block : CellBlock}
    (found : world.block target = .ok block) : (Value.array block.values).Rectangular := by
  unfold Surroundings.block at found
  cases led : world.resolve target with
  | error e =>
    rw [led] at found
    contradiction
  | ok zone =>
    rw [led] at found
    obtain rfl := Except.ok.inj found
    exact seen.zoneValues zone

/-- The value of a reference is rectangular. -/
theorem Rectangular.read (seen : world.Rectangular) (target : Reference) :
    (world.read target).Rectangular := by
  unfold Surroundings.read
  split
  · split
    · exact seen.value _
    · exact (Value.isSingle_error _).rectangular
  · split
    · rename_i block found
      have shape := seen.block found
      cases only : block.values.only? with
      | none => exact shape
      | some v =>
        rw [Grid.eq_of_only? only] at shape
        exact shape.entry List.mem_cons_self List.mem_cons_self
    · exact (Value.isSingle_error _).rectangular

end Surroundings

namespace Expr

open Evaluation

variable {world : Surroundings} {e : Expr}

/-- The cells an expression covers make a rectangular array. -/
theorem rectangular_covered (seen : world.Rectangular) {block : CellBlock}
    (found : e.covered world = .ok block) : (Value.array block.values).Rectangular := by
  unfold covered at found
  split at found
  · exact seen.block found
  · obtain rfl := Except.ok.inj found
    exact .array Nat.one_pos (fun _ none => by contradiction) fun _ none => by contradiction

/-- The arguments of a call belong to its expressions. -/
theorem mem_evaluateArguments {arguments : List Expr} {a : Argument}
    (listed : a ∈ evaluateArguments world arguments) :
    ∃ e ∈ arguments,
      a = ⟨e, e.evaluate world, none, fun _ => e.covered world, fun _ => e.format world⟩ := by
  induction arguments with
  | nil => contradiction
  | cons e rest ih =>
    unfold evaluateArguments at listed
    rcases List.mem_cons.mp listed with rfl | later
    · exact ⟨e, List.mem_cons_self, rfl⟩
    · obtain ⟨e', member, same⟩ := ih later
      exact ⟨e', List.mem_cons_of_mem _ member, same⟩

/-- An argument whose expression yields a rectangular value is rectangular. -/
theorem rectangular_argument (seen : world.Rectangular) (shape : e.Rectangular)
    (outcome : (e.evaluate world).Yields Value.Rectangular) :
    Argument.Rectangular
      ⟨e, e.evaluate world, none, fun _ => e.covered world, fun _ => e.format world⟩ where
  literal v found := by
    unfold Argument.literal? at found
    split at found
    · rename_i w span same
      obtain rfl := Option.some.inj found
      dsimp only at same
      rw [same] at shape
      exact shape.value_of
    · contradiction
  settled v found := by contradiction
  outcome := outcome
  covered _ found := rectangular_covered seen found

/-- A row has as many values as expressions, and they are rectangular. -/
theorem yields_evaluateRow {row : List Expr}
    (entries : ∀ e ∈ row, (e.evaluate world).Yields Value.Rectangular) :
    (evaluateRow world row).Yields fun values =>
      values.length = row.length ∧ ∀ v ∈ values, v.Rectangular := by
  induction row with
  | nil => exact yields_pure ⟨rfl, fun _ none => by contradiction⟩
  | cons e rest ih =>
    unfold evaluateRow
    refine (entries e List.mem_cons_self).bind fun v shape => ?_
    refine (ih fun e' later => entries e' (List.mem_cons_of_mem _ later)).bind ?_
    rintro values ⟨length, shapes⟩
    exact yields_pure ⟨congrArg Nat.succ length, List.forall_mem_cons.mpr ⟨shape, shapes⟩⟩

/-- Rows of one length have values of that length, and they are rectangular. -/
theorem yields_evaluateRows {rows : List (List Expr)} {width : Nat} (even : Grid.Even rows width)
    (entries : ∀ row ∈ rows, ∀ e ∈ row, (e.evaluate world).Yields Value.Rectangular) :
    (evaluateRows world rows).Yields fun values =>
      Grid.Even values width ∧ ∀ row ∈ values, ∀ v ∈ row, v.Rectangular := by
  induction rows with
  | nil => exact yields_pure ⟨fun _ none => by contradiction, fun _ none => by contradiction⟩
  | cons row rest ih =>
    unfold evaluateRows
    refine (yields_evaluateRow (entries row List.mem_cons_self)).bind ?_
    rintro values ⟨length, shapes⟩
    refine (ih (fun other later => even other (List.mem_cons_of_mem _ later)) fun other later =>
      entries other (List.mem_cons_of_mem _ later)).bind ?_
    rintro others ⟨others_even, others_shapes⟩
    refine yields_pure ⟨List.forall_mem_cons.mpr ⟨?_, others_even⟩,
      List.forall_mem_cons.mpr ⟨shapes, others_shapes⟩⟩
    rw [length, even row List.mem_cons_self]

/-- The value of a rectangular tree is rectangular. -/
theorem Rectangular.evaluate (shape : e.Rectangular) (seen : world.Rectangular) :
    (e.evaluate world).Yields Value.Rectangular := by
  induction shape with
  | literal inner =>
    unfold Expr.evaluate
    exact yields_pure inner
  | reference =>
    unfold Expr.evaluate
    exact yields_pure (seen.read _)
  | unary _ ih =>
    unfold Expr.evaluate
    exact ih.bind fun v inner => yields_pure (UnaryOperator.rectangular_apply _ inner)
  | binary _ _ first second =>
    unfold Expr.evaluate
    exact first.bind fun v left => second.bind fun w right =>
      yields_pure (BinaryOperator.rectangular_apply _ left right)
  | call all ih =>
    unfold Expr.evaluate
    split
    · rename_i f found
      refine (seen.function _ f found).call fun a listed => ?_
      obtain ⟨e, member, rfl⟩ := mem_evaluateArguments listed
      exact rectangular_argument seen (all e member) (ih e member)
    · exact yields_throw _
  | array wide even _ ih =>
    unfold Expr.evaluate
    refine (yields_evaluateRows even ih).bind ?_
    rintro values ⟨values_even, shapes⟩
    exact yields_pure (.array wide values_even shapes)

end Expr

/-! ### Outcomes -/

namespace Grid

variable {α : Type} {grid : Grid α} {rows columns : Nat}

/-- The grid has a number of rows and a number of columns. -/
structure Sized (grid : Grid α) (rows columns : Nat) : Prop where
  length : grid.length = rows
  even : grid.Even columns

/-- A grid has entries wherever its extent has places. -/
theorem Sized.isSome_at? (sized : grid.Sized rows columns) {i j : Nat} (below : i < rows)
    (beside : j < columns) : ∃ a, grid.at? i j = some a := by
  have there : i < grid.length := by
    rw [sized.length]
    exact below
  have inside : j < (grid[i]).length := by
    rw [sized.even _ (List.getElem_mem there)]
    exact beside
  refine ⟨(grid[i])[j], ?_⟩
  simp [at?, there, inside]

/-- The extent of a grid with rows is its size. -/
theorem Sized.extent_eq (sized : grid.Sized rows columns) (tall : 0 < rows) :
    grid.extent = (rows, columns) := by
  have any : grid ≠ [] := List.length_pos_iff.mp (by
    rw [sized.length]
    exact tall)
  rw [sized.even.extent_eq any, sized.length]

end Grid

namespace Value

/-- A single value that is still an array was the only entry of an array. -/
theorem single?_eq_array_iff {v : Value} {rows : Grid Value} :
    v.single? = .ok (.array rows) ↔ v = .array [[.array rows]] := by
  constructor
  · intro found
    unfold single? at found
    split at found
    · rw [Except.ok.inj found]
    · exact Value.noConfusion (Except.ok.inj found)
    · exact Value.noConfusion (Except.ok.inj found)
    · contradiction
    · rename_i other
      exact absurd (Except.ok.inj found) (other rows)
  · rintro rfl
    rfl

/-- A value that is too large to be a single one is an array with rows. -/
theorem ne_array_nil_of_single? {v : Value} {extent : Nat × Nat}
    (large : v.single? = .error extent) : v ≠ .array [] := by
  rintro rfl
  contradiction

end Value

/-- A single value, or an array with rows and columns and with as many formats. -/
inductive Outcome.Fits : Outcome → Prop where
  | single {value : Value} {format : Option String} (alone : value.IsSingle) :
    Fits (.single value format)
  | array {values : Grid Value} {formats : Grid (Option String)} {rows columns : Nat}
    (tall : 0 < rows) (wide : 0 < columns) (sized : values.Sized rows columns)
    (formatted : formats.Sized rows columns)
    (entries : ∀ row ∈ values, ∀ v ∈ row, v.Rectangular) : Fits (.array values formats)

namespace Outcome

/-- Counting an empty value as zero gives no array. -/
theorem isSingle_orZero {v : Value} (alone : v.IsSingle) : v.orZero.IsSingle := by
  unfold Value.orZero
  split
  · exact Value.isSingle_number _
  · exact alone

/-- Counting an empty value as zero keeps it rectangular. -/
theorem rectangular_orZero {v : Value} (shape : v.Rectangular) : v.orZero.Rectangular := by
  unfold Value.orZero
  split
  · exact (Value.isSingle_number _).rectangular
  · exact shape

/-- An error fits. -/
theorem fits_failure (e : CellError) : (failure e).Fits := .single (Value.isSingle_error _)

/-- A fault fits. -/
theorem fits_fault (message : String) : (fault message).Fits := .single (Value.isSingle_error _)

/-- A single value fits whatever its format. -/
theorem fits_ofSingle (ofCall : Bool) {v : Value} (format : ResultFormat) (alone : v.IsSingle) :
    (ofSingle ofCall v format).Fits := by
  unfold ofSingle
  split
  · exact .single (isSingle_orZero alone)
  · split
    · exact fits_fault _
    · exact .single (isSingle_orZero alone)

/-- A rectangular array with rows fits whatever its format. -/
theorem fits_ofArray (ofCall : Bool) {values : Grid Value} (format : ResultFormat)
    (shape : (Value.array values).Rectangular) (any : values ≠ []) :
    (ofArray ofCall values format).Fits := by
  obtain ⟨width, wide, even, entries⟩ := shape.rows_of
  have extent := even.extent_eq any
  have spread : ∀ formats : Grid (Option String), formats.Sized values.length width →
      (Outcome.array (values.map fun row => row.map Value.orZero) formats).Fits := by
    intro formats formatted
    refine .array (List.length_pos_iff.mpr any) wide ⟨List.length_map _, even.map _⟩ formatted ?_
    intro row listed v member
    obtain ⟨source, there, rfl⟩ := List.mem_map.mp listed
    obtain ⟨entry, inside, rfl⟩ := List.mem_map.mp member
    exact rectangular_orZero (entries source there entry inside)
  have built : ∀ entry : Nat → Nat → Option String,
      (Grid.build values.length width entry).Sized values.length width := fun entry =>
    ⟨Grid.length_build _ _ _, Grid.even_build _ _ _⟩
  unfold ofArray
  rw [extent]
  dsimp only
  split
  · exact spread _ (built _)
  · split
    · exact fits_fault _
    · exact spread _ (built _)
  · split
    · rename_i agrees
      rw [Bool.and_eq_true, beq_iff_eq, List.all_eq_true] at agrees
      exact spread _ ⟨agrees.1, fun row listed => beq_iff_eq.mp (agrees.2 row listed)⟩
    · split
      · exact fits_fault _
      · exact spread _ (built _)

/-- What a rectangular value comes to fits whatever its format. -/
theorem fits_ofResult (e : Expr) {v : Value} (format : ResultFormat) (shape : v.Rectangular) :
    (ofResult e v format).Fits := by
  have reduced := shape.reduced
  unfold ofResult
  dsimp only
  split
  · exact fits_failure _
  · rename_i values same
    have inner : (Value.array values).Rectangular := by
      rw [← same]
      exact reduced
    split
    · exact fits_fault _
    · split
      · exact .single Value.isSingle_empty
      · rename_i any
        exact fits_ofArray _ _ inner fun none => any (by rw [none]; rfl)
  · rename_i other
    exact fits_ofSingle _ _ fun rows same => other rows same

/-! ### Formulas that are stuck -/

/-- A single value comes to something. -/
theorem ofSingle_ne_stuck (ofCall : Bool) (v : Value) (format : ResultFormat) :
    ofSingle ofCall v format ≠ stuck := by
  have zero : v.orZero ≠ .empty := by
    cases v <;> exact Value.noConfusion
  unfold ofSingle
  split
  · exact fun same => zero (Outcome.single.inj same).1
  · split
    · exact fun same => by cases same
    · exact fun same => zero (Outcome.single.inj same).1

/-- An array with rows comes to something. -/
theorem ofArray_ne_stuck (ofCall : Bool) (values : Grid Value) (format : ResultFormat) :
    ofArray ofCall values format ≠ stuck := by
  unfold ofArray
  dsimp only
  repeat' split
  all_goals exact fun same => by cases same

/-- A formula is stuck exactly with an array whose only entry is an array without rows. -/
theorem ofResult_eq_stuck_iff (e : Expr) (v : Value) (format : ResultFormat) :
    ofResult e v format = stuck ↔ e.isReference = false ∧ v = .array [[.array []]] := by
  constructor
  · intro ended
    unfold ofResult at ended
    dsimp only at ended
    split at ended
    · cases ended
    · rename_i values reduced
      split at ended
      · cases ended
      · rename_i other
        split at ended
        · rename_i none
          obtain rfl := List.isEmpty_iff.mp none
          refine ⟨Bool.eq_false_iff.mpr other, ?_⟩
          split at reduced
          · rename_i w cut
            rw [reduced] at cut
            exact Value.single?_eq_array_iff.mp cut
          · rename_i large
            exact absurd reduced (Value.ne_array_nil_of_single? large)
        · exact absurd ended (ofArray_ne_stuck _ _ _)
    · exact absurd ended (ofSingle_ne_stuck _ _ _)
  · rintro ⟨other, rfl⟩
    unfold ofResult
    simp [other, Value.single?]

end Outcome

end Spreadsheet
