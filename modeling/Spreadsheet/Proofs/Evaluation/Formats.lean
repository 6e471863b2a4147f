import Spreadsheet.Evaluation.Basic
import Spreadsheet.Proofs.Function.Formats

/-!
# Values do not depend on formats

Surroundings may show other formats for the same cells. As long as the functions are blind to formats, a
formula has the same value there and makes the same calls.
-/
namespace Spreadsheet

namespace Surroundings

/-- The same surroundings, but cells show other formats. -/
def withFormat (world : Surroundings) (format : Position → Option String) : Surroundings :=
  { world with format := format }

/-- The functions of the surroundings are blind to formats. -/
def FormatBlind (world : Surroundings) : Prop :=
  ∀ name f, world.function? name = some f → f.FormatBlind

variable (world : Surroundings) (format : Position → Option String)

/-- References lead to the same zones whatever formats cells show. -/
@[simp] theorem resolve_withFormat : (world.withFormat format).resolve = world.resolve := rfl

/-- The same functions are known whatever formats cells show. -/
@[simp] theorem function?_withFormat : (world.withFormat format).function? = world.function? := rfl

/-- The values that a reference covers do not depend on formats. -/
theorem values_block_withFormat (target : Reference) :
    ((world.withFormat format).block target).map CellBlock.values =
      (world.block target).map CellBlock.values := by
  simp only [block, resolve_withFormat]
  cases world.resolve target with
  | error e => rfl
  | ok zone => rfl

/-- The value of a reference does not depend on formats. -/
theorem read_withFormat (target : Reference) :
    (world.withFormat format).read target = world.read target := by
  cases target with
  | cell sheet corner => rfl
  | range sheet start stop =>
    simp only [read, block, resolve_withFormat]
    cases world.resolve (.range sheet start stop) with
    | error e => rfl
    | ok zone => rfl

end Surroundings

namespace Expr

variable {world : Surroundings} {format : Position → Option String}

/-- What an argument is does not depend on formats, apart from formats. -/
theorem plain_argument_withFormat {e : Expr}
    (same : e.evaluate (world.withFormat format) = e.evaluate world) :
    Argument.plain ⟨e, e.evaluate (world.withFormat format), none,
        fun _ => e.covered (world.withFormat format), fun _ => e.format (world.withFormat format)⟩ =
      Argument.plain ⟨e, e.evaluate world, none, fun _ => e.covered world,
        fun _ => e.format world⟩ := by
  have bare : ∀ covered : Except CellError CellBlock,
      covered.map (fun block => (⟨block.values, none⟩ : CellBlock)) =
        (covered.map CellBlock.values).map fun values => ⟨values, none⟩ := fun covered => by
    cases covered <;> rfl
  have covered : (e.covered (world.withFormat format)).map CellBlock.values =
      (e.covered world).map CellBlock.values := by
    cases e with
    | reference target spelling span => exact world.values_block_withFormat format target
    | _ => rfl
  unfold Argument.plain
  simp only [same, bare, covered]

mutual

/-- The value of a formula does not depend on formats. -/
theorem evaluate_withFormat (blind : world.FormatBlind) :
    ∀ e : Expr, e.evaluate (world.withFormat format) = e.evaluate world
  | .literal _ _ => rfl
  | .reference target _ _ => by
    simp only [evaluate, world.read_withFormat]
  | .unary _ operand _ => by
    simp only [evaluate, evaluate_withFormat blind operand]
  | .binary _ left right _ => by
    simp only [evaluate, evaluate_withFormat blind left, evaluate_withFormat blind right]
  | .call name arguments _ => by
    have all := plain_evaluateArguments_withFormat blind arguments
    simp only [evaluate, Surroundings.function?_withFormat]
    cases found : world.function? name with
    | none => rfl
    | some f =>
      dsimp only
      rw [← (blind name f found).call, all, (blind name f found).call]
  | .array rows _ => by
    simp only [evaluate, evaluateRows_withFormat blind rows]

/-- The arguments of a call do not depend on formats, apart from formats. -/
theorem plain_evaluateArguments_withFormat (blind : world.FormatBlind) :
    ∀ arguments : List Expr,
      (evaluateArguments (world.withFormat format) arguments).map Argument.plain =
        (evaluateArguments world arguments).map Argument.plain
  | [] => rfl
  | e :: rest => by
    have head := plain_argument_withFormat (evaluate_withFormat blind e)
    have tail := plain_evaluateArguments_withFormat blind rest
    simp only [evaluateArguments, List.map_cons, head, tail]

/-- The values of a row do not depend on formats. -/
theorem evaluateRow_withFormat (blind : world.FormatBlind) :
    ∀ row : List Expr, evaluateRow (world.withFormat format) row = evaluateRow world row
  | [] => rfl
  | e :: rest => by
    simp only [evaluateRow, evaluate_withFormat blind e, evaluateRow_withFormat blind rest]

/-- The values of rows do not depend on formats. -/
theorem evaluateRows_withFormat (blind : world.FormatBlind) :
    ∀ rows : List (List Expr), evaluateRows (world.withFormat format) rows = evaluateRows world rows
  | [] => rfl
  | row :: rest => by
    simp only [evaluateRows, evaluateRow_withFormat blind row, evaluateRows_withFormat blind rest]

end

end Expr

end Spreadsheet
