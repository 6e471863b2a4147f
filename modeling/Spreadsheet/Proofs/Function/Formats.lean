import Spreadsheet.Proofs.Function.Rectangular

/-!
# Functions that do not look at formats

Values and formats are found separately, but the cells of an argument come with formats, so the body of
a function could look at them. A function is blind to formats if its body comes to the same for
arguments without formats; then so does a call. Every function of the library is.
-/
namespace Spreadsheet

namespace Argument

open Evaluation

/-- The argument without the formats of its expression and of the cells it covers. -/
def plain (a : Argument) : Argument :=
  { a with
    covered := fun _ => (a.covered ()).map fun block => ⟨block.values, none⟩
    format := fun _ => .none }

variable (a : Argument) (arguments : List Argument)

/-- The value of an argument does not depend on formats. -/
@[simp] theorem value_plain : a.plain.value = a.value := rfl

/-- The single value of an argument does not depend on formats. -/
@[simp] theorem single_plain : a.plain.single = a.single := rfl

/-- Whether an argument is left out does not depend on formats. -/
@[simp] theorem isOmitted_plain : a.plain.isOmitted = a.isOmitted := rfl

/-- What an argument contributes does not depend on formats. -/
@[simp] theorem items_plain : a.plain.items = a.items := rfl

/-- What is taken from arguments does not depend on formats. -/
@[simp] theorem gather_plain {α : Type} (pick : Value → Bool → Except CellError (List α)) :
    gather pick (arguments.map plain) = gather pick arguments := by
  induction arguments with
  | nil => rfl
  | cons a rest ih => simp only [List.map_cons, gather, items_plain, ih]

/-- Settling an argument does not depend on formats. -/
theorem settle_plain : a.plain.settle = plain <$> a.settle := by
  unfold settle
  show (if a.literal?.isSome = true then _ else _) = _
  split
  · exact (map_pure ..).symm
  · rw [map_bind]
    refine bind_congr fun result => ?_
    cases result with
    | error e => exact (map_pure ..).symm
    | ok v =>
      dsimp only
      rw [map_bind]
      exact bind_congr fun w => (map_pure ..).symm

/-- The values of the cells of an argument do not depend on formats. -/
theorem values_block_plain :
    CellBlock.values <$> a.plain.block = CellBlock.values <$> a.block := by
  unfold block
  show _ <$> (if a.expr.isReference = true then _ else _) = _
  split
  · show CellBlock.values <$> ofExcept ((a.covered ()).map _) = _
    cases a.covered () with
    | ok block => rfl
    | error e => rfl
  · rw [map_bind, map_bind]
    exact bind_congr fun v => rfl

end Argument

namespace Function

open Evaluation

variable {f : Function} {arguments : List Argument}

/-- The body of the function comes to the same for arguments without formats. -/
def FormatBlind (f : Function) : Prop :=
  ∀ arguments, f.body (arguments.map Argument.plain) = f.body arguments

/-- Settling arguments does not depend on formats. -/
theorem settleFrom_plain (f : Function) (index : Nat) (arguments : List Argument) :
    f.settleFrom index (arguments.map Argument.plain) =
      List.map Argument.plain <$> f.settleFrom index arguments := by
  induction arguments generalizing index with
  | nil => exact (map_pure ..).symm
  | cons a rest ih =>
    have taken : ∀ b : Argument, (do
        let others ← f.settleFrom (index + 1) (rest.map Argument.plain)
        return b.plain :: others : Evaluation (List Argument)) =
          List.map Argument.plain <$> (do
            let others ← f.settleFrom (index + 1) rest
            return b :: others) := fun b => by
      rw [ih, map_bind, bind_map_left]
      exact bind_congr fun others => (map_pure ..).symm
    rw [List.map_cons, settleFrom, settleFrom]
    split
    · rw [a.settle_plain, bind_map_left, map_bind]
      exact bind_congr taken
    · rw [pure_bind, pure_bind]
      exact taken a

/-- A call of a function that is blind to formats comes to the same for arguments without formats. -/
theorem FormatBlind.call (blind : f.FormatBlind) (arguments : List Argument) :
    f.call (arguments.map Argument.plain) = f.call arguments := by
  have body : ∀ settled : List Argument, (do
      record f.name
      f.body (settled.map Argument.plain) : Evaluation Value) = (do
        record f.name
        f.body settled) := fun settled => by
    rw [blind settled]
  have run : (do
      let settled ← if f.shortCircuit then pure (arguments.map Argument.plain)
        else f.settleFrom 0 (arguments.map Argument.plain)
      record f.name
      f.body settled : Evaluation Value) = (do
        let settled ← if f.shortCircuit then pure arguments else f.settleFrom 0 arguments
        record f.name
        f.body settled) := by
    split
    · exact body arguments
    · rw [settleFrom_plain, bind_map_left]
      exact bind_congr body
  unfold Function.call
  rw [List.length_map, run]

/-! ### The library -/

/-- A function that starts by taking something from the values of all arguments is blind to formats. -/
theorem formatBlind_of_gather {α : Type} {pick : Value → Bool → Except CellError (List α)}
    {rest : List α → Evaluation Value}
    (body : ∀ arguments, f.body arguments = Argument.gather pick arguments >>= rest) :
    f.FormatBlind := fun arguments => by
  rw [body, body, Argument.gather_plain]

/-- Aggregates are blind to formats. -/
theorem formatBlind_aggregate (name : String) (f : List Number → Except CellError Number) :
    (aggregate name f).FormatBlind := formatBlind_of_gather fun _ => rfl

/-- A count is blind to formats. -/
theorem formatBlind_count : count.FormatBlind := formatBlind_of_gather fun _ => rfl

/-- A magnitude is blind to formats. -/
theorem formatBlind_magnitude : magnitude.FormatBlind
  | [] => rfl
  | _ :: _ => rfl

/-- A function of truth values is blind to formats. -/
theorem formatBlind_logical (name : String) (f : List Bool → Bool) :
    (logical name f).FormatBlind := formatBlind_of_gather fun _ => rfl

/-- An opposite is blind to formats. -/
theorem formatBlind_negation : negation.FormatBlind
  | [] => rfl
  | _ :: _ => rfl

/-- A joined text is blind to formats. -/
theorem formatBlind_concatenation : concatenation.FormatBlind := formatBlind_of_gather fun _ => rfl

/-- A choice is blind to formats. -/
theorem formatBlind_choice : choice.FormatBlind := by
  have taken : ∀ (arguments : List Argument) (index : Nat),
      branch (arguments.map Argument.plain)[index]? = branch arguments[index]? := by
    intro arguments index
    rw [List.getElem?_map]
    cases arguments[index]? with
    | none => rfl
    | some a => rfl
  intro arguments
  cases arguments with
  | nil => rfl
  | cons a rest =>
    refine bind_congr fun v => bind_congr fun condition => ?_
    exact taken (a :: rest) _

/-- Swapping rows and columns is blind to formats. -/
theorem formatBlind_transposition : transposition.FormatBlind
  | [] => rfl
  | a :: _ => by
    have through : ∀ x : Evaluation CellBlock, (do
        let block ← x
        return (block.values.only?).getD (.array block.values.transpose) : Evaluation Value) =
          (do
            let values ← CellBlock.values <$> x
            return (values.only?).getD (.array values.transpose)) := fun x => by
      rw [bind_map_left]
    show (do
        let block ← a.plain.block
        return (block.values.only?).getD (.array block.values.transpose) : Evaluation Value) = do
          let block ← a.block
          return (block.values.only?).getD (.array block.values.transpose)
    rw [through, through, a.values_block_plain]

/-- The functions of the library are blind to formats. -/
theorem formatBlind_of_mem_library (listed : f ∈ library) : f.FormatBlind := by
  simp only [library, List.mem_cons, List.not_mem_nil, or_false] at listed
  rcases listed with rfl | rfl | rfl | rfl | rfl | rfl | rfl | rfl | rfl | rfl | rfl | rfl | rfl
  · exact formatBlind_transposition
  · exact formatBlind_choice
  · exact formatBlind_logical _ _
  · exact formatBlind_logical _ _
  · exact formatBlind_negation
  · exact formatBlind_aggregate _ _
  · exact formatBlind_aggregate _ _
  · exact formatBlind_aggregate _ _
  · exact formatBlind_aggregate _ _
  · exact formatBlind_count
  · exact formatBlind_aggregate _ _
  · exact formatBlind_magnitude
  · exact formatBlind_concatenation

end Function

end Spreadsheet
