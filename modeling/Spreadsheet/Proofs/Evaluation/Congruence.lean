import Spreadsheet.Evaluation.Basic
import Spreadsheet.Function.Library
import Spreadsheet.Proofs.Address.Zones

/-!
# What a formula depends on

The value and the format of a formula depend on where its references lead and on what the positions
there show, and on nothing else it sees.
-/
namespace Spreadsheet

/-- Grids are equal when they are built from equal entries. -/
theorem Grid.build_congr {α : Type} {rows columns : Nat} {entry entry' : Nat → Nat → α}
    (same : ∀ row column, row < rows → column < columns → entry' row column = entry row column) :
    build rows columns entry' = build rows columns entry := by
  refine List.map_congr_left fun row below => List.map_congr_left fun column beside => ?_
  exact same row column (List.mem_range.mp below) (List.mem_range.mp beside)

namespace Surroundings

variable {world world' : Surroundings} {target : Reference}

/-- A reference leads to the same zone, and the positions there show the same. -/
structure Agree (world world' : Surroundings) (target : Reference) : Prop where
  resolve : world'.resolve target = world.resolve target
  value : ∀ zone, world.resolve target = .ok zone → ∀ q, zone.contains q = true →
    world'.value q = world.value q
  format : ∀ zone, world.resolve target = .ok zone → ∀ q, zone.contains q = true →
    world'.format q = world.format q

/-- The position at a row and column of a zone lies in it. -/
theorem contains_at {z : Zone} {row column : Nat} (below : row < z.rows) (beside : column < z.columns) :
    z.contains ⟨z.sheet, z.top + row, z.left + column⟩ = true := by
  have tall := z.top_le_bottom
  have wide := z.left_le_right
  unfold Zone.rows at below
  unfold Zone.columns at beside
  exact Zone.contains_iff.mpr ⟨rfl, by dsimp only; omega⟩

/-- A zone where positions show the same values has the same values. -/
theorem zoneValues_congr {z : Zone}
    (same : ∀ q, z.contains q = true → world'.value q = world.value q) :
    world'.zoneValues z = world.zoneValues z :=
  Grid.build_congr fun _ _ below beside => same _ (contains_at below beside)

/-- A zone where positions show the same formats has the same formats. -/
theorem zoneFormats_congr {z : Zone}
    (same : ∀ q, z.contains q = true → world'.format q = world.format q) :
    world'.zoneFormats z = world.zoneFormats z :=
  Grid.build_congr fun _ _ below beside => same _ (contains_at below beside)

namespace Agree

/-- A reference covers the same block. -/
theorem block (agree : Agree world world' target) : world'.block target = world.block target := by
  unfold Surroundings.block
  rw [agree.resolve]
  cases led : world.resolve target with
  | error e => rfl
  | ok zone =>
    simp only [Except.map, zoneBlock]
    rw [zoneValues_congr (agree.value zone led), zoneFormats_congr (agree.format zone led)]

/-- A reference has the same value. -/
theorem read (agree : Agree world world' target) : world'.read target = world.read target := by
  unfold Surroundings.read
  cases target with
  | cell sheet c =>
    dsimp only
    rw [agree.resolve]
    cases led : world.resolve (.cell sheet c) with
    | error e => rfl
    | ok zone => exact agree.value zone led _ zone.contains_topLeft
  | range sheet start stop =>
    dsimp only
    rw [agree.block]

/-- A reference has the same format. -/
theorem formatOfReference (agree : Agree world world' target) :
    world'.formatOfReference target = world.formatOfReference target := by
  unfold Surroundings.formatOfReference
  rw [agree.resolve]
  cases led : world.resolve target with
  | error e => rfl
  | ok zone =>
    dsimp only
    rw [agree.format zone led _ zone.contains_topLeft, zoneFormats_congr (agree.format zone led)]

end Agree

end Surroundings

namespace Expr

open Surroundings

variable {world world' : Surroundings}

/-- The cells an expression covers are the same. -/
theorem covered_congr {e : Expr} (agree : ∀ target ∈ e.references, Agree world world' target) :
    e.covered world' = e.covered world := by
  cases e with
  | reference target spelling span => exact (agree target List.mem_cons_self).block
  | _ => rfl

mutual

/-- The format of a formula depends on what its references agree on. -/
theorem format_congr (functions : world'.function? = world.function?) :
    ∀ e : Expr, (∀ target ∈ e.references, Agree world world' target) →
      e.format world' = e.format world
  | .literal _ _, _ => rfl
  | .reference target _ _, agree => (agree target List.mem_cons_self).formatOfReference
  | .unary operator operand _, agree => by
    have inner := format_congr functions operand agree
    cases operator <;> simp only [format, inner]
  | .binary operator left right _, agree => by
    have first := format_congr functions left fun target listed =>
      agree target (List.mem_append_left _ listed)
    have second := format_congr functions right fun target listed =>
      agree target (List.mem_append_right _ listed)
    simp only [format, first, second]
  | .call name arguments _, agree => by
    have all := formatArguments_congr functions arguments agree
    simp only [format, functions, all]
  | .array _ _, _ => rfl

/-- The arguments of a call have the same formats. -/
theorem formatArguments_congr (functions : world'.function? = world.function?) :
    ∀ arguments : List Expr,
      (∀ target ∈ referencesOfAll arguments, Agree world world' target) →
        formatArguments world' arguments = formatArguments world arguments
  | [], _ => rfl
  | e :: rest, agree => by
    have head := format_congr functions e fun target listed =>
      agree target (List.mem_append_left _ listed)
    have tail := formatArguments_congr functions rest fun target listed =>
      agree target (List.mem_append_right _ listed)
    simp only [formatArguments, head, tail]

end

mutual

/-- The value of a formula depends on what its references agree on. -/
theorem evaluate_congr (functions : world'.function? = world.function?) :
    ∀ e : Expr, (∀ target ∈ e.references, Agree world world' target) →
      e.evaluate world' = e.evaluate world
  | .literal _ _, _ => rfl
  | .reference target _ _, agree => by
    simp only [evaluate, (agree target List.mem_cons_self).read]
  | .unary operator operand _, agree => by
    simp only [evaluate, evaluate_congr functions operand agree]
  | .binary operator left right _, agree => by
    have first := evaluate_congr functions left fun target listed =>
      agree target (List.mem_append_left _ listed)
    have second := evaluate_congr functions right fun target listed =>
      agree target (List.mem_append_right _ listed)
    simp only [evaluate, first, second]
  | .call name arguments _, agree => by
    simp only [evaluate, functions, evaluateArguments_congr functions arguments agree]
  | .array rows _, agree => by
    simp only [evaluate, evaluateRows_congr functions rows agree]

/-- The arguments of a call are the same. -/
theorem evaluateArguments_congr (functions : world'.function? = world.function?) :
    ∀ arguments : List Expr,
      (∀ target ∈ referencesOfAll arguments, Agree world world' target) →
        evaluateArguments world' arguments = evaluateArguments world arguments
  | [], _ => rfl
  | e :: rest, agree => by
    have own : ∀ target ∈ e.references, Agree world world' target := fun target listed =>
      agree target (List.mem_append_left _ listed)
    have tail := evaluateArguments_congr functions rest fun target listed =>
      agree target (List.mem_append_right _ listed)
    simp only [evaluateArguments, evaluate_congr functions e own, format_congr functions e own,
      covered_congr own, tail]

/-- A row has the same values. -/
theorem evaluateRow_congr (functions : world'.function? = world.function?) :
    ∀ row : List Expr, (∀ target ∈ referencesOfAll row, Agree world world' target) →
      evaluateRow world' row = evaluateRow world row
  | [], _ => rfl
  | e :: rest, agree => by
    have head := evaluate_congr functions e fun target listed =>
      agree target (List.mem_append_left _ listed)
    have tail := evaluateRow_congr functions rest fun target listed =>
      agree target (List.mem_append_right _ listed)
    simp only [evaluateRow, head, tail]

/-- Rows have the same values. -/
theorem evaluateRows_congr (functions : world'.function? = world.function?) :
    ∀ rows : List (List Expr), (∀ target ∈ referencesOfRows rows, Agree world world' target) →
      evaluateRows world' rows = evaluateRows world rows
  | [], _ => rfl
  | row :: rest, agree => by
    have head := evaluateRow_congr functions row fun target listed =>
      agree target (List.mem_append_left _ listed)
    have tail := evaluateRows_congr functions rest fun target listed =>
      agree target (List.mem_append_right _ listed)
    simp only [evaluateRows, head, tail]

end

/-- Surroundings that know the same functions, resolve every reference of a formula alike and show the
same values and formats in the zones these lead to, give the formula the same value or error, by the
same calls, and the same format. -/
theorem evaluate_format_eq_of_agree (e : Expr)
    (functions : ∀ name, world'.function? name = world.function? name)
    (agree : ∀ target ∈ e.references, Agree world world' target) :
    e.evaluate world' = e.evaluate world ∧ e.format world' = e.format world :=
  ⟨evaluate_congr (funext functions) e agree, format_congr (funext functions) e agree⟩

/-- Surroundings of one sheet with texts in its cells, which show the name of their column as
format. -/
def textSheet (text : Position → String) : Surroundings where
  resolve target := .ok (target.zone 0 100 26)
  value q := .text (text q)
  format q := some (String.ofList (Column.letters q.column))
  function? := FunctionTable.empty.resolve? ""

/-- `IF(A1="",TRANSPOSE(A1:A3),CONCAT(A:A))`. -/
def columnReader : Expr :=
  let cell : Coordinate := .clamp 0 0 false false
  let corner (row : Nat) : Corner := ⟨some ⟨row, false⟩, some ⟨0, false⟩⟩
  let column : Corner := ⟨none, some ⟨0, false⟩⟩
  .call "IF"
    [.binary .equal (.reference (.cell none cell) "A1" none) (.literal (.text "") none) none,
      .call "TRANSPOSE" [.reference (.range none (corner 0) (corner 2)) "A1:A3" none] none,
      .call "CONCAT" [.reference (.range none column column) "A:A" none] none]
    none

/-- A formula that reads the first column only does not notice what the other columns show. -/
theorem evaluate_format_columnReader :
    (∀ name, (textSheet fun q => if q.column = 0 then "a" else "b").function? name =
        (textSheet fun _ => "a").function? name) ∧
      (∀ target ∈ columnReader.references,
        Agree (textSheet fun _ => "a") (textSheet fun q => if q.column = 0 then "a" else "b") target) ∧
      columnReader.evaluate (textSheet fun q => if q.column = 0 then "a" else "b") =
        columnReader.evaluate (textSheet fun _ => "a") ∧
      columnReader.format (textSheet fun q => if q.column = 0 then "a" else "b") =
        columnReader.format (textSheet fun _ => "a") := by
  have first : ∀ target ∈ columnReader.references, (target.zone 0 100 26).left = 0 ∧
      (target.zone 0 100 26).right = 0 := by decide
  have agree : ∀ target ∈ columnReader.references,
      Agree (textSheet fun _ => "a") (textSheet fun q => if q.column = 0 then "a" else "b") target := by
    intro target listed
    refine ⟨rfl, fun zone led q inside => ?_, fun _ _ _ _ => rfl⟩
    obtain rfl := Except.ok.inj led
    obtain ⟨_, _, _, _, beside⟩ := Zone.contains_iff.mp inside
    rw [(first target listed).2, Nat.le_zero] at beside
    simp [textSheet, beside]
  exact ⟨fun _ => rfl, agree, evaluate_format_eq_of_agree columnReader (fun _ => rfl) agree⟩

end Expr

end Spreadsheet
