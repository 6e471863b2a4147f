import Spreadsheet.Evaluation.Operators
import Spreadsheet.Function.Basic

/-!
# Evaluation of formulas

A formula is evaluated in surroundings that resolve its references, show the values and formats of
cells and know functions. Values and formats are found by two separate walks over the tree, and
the walk for formats runs no function.
-/
namespace Spreadsheet

/-- What a formula sees of the world. -/
structure Surroundings where
  resolve : Reference → Except CellError Zone
  value : Position → Value
  format : Position → Option String
  function? : String → Option Function

namespace Surroundings

variable (world : Surroundings)

/-- The values of a zone. -/
def zoneValues (z : Zone) : Grid Value :=
  Grid.build z.rows z.columns fun row column => world.value ⟨z.sheet, z.top + row, z.left + column⟩

/-- The formats of a zone. -/
def zoneFormats (z : Zone) : Grid (Option String) :=
  Grid.build z.rows z.columns fun row column => world.format ⟨z.sheet, z.top + row, z.left + column⟩

/-- The values and formats of a zone. -/
def zoneBlock (z : Zone) : CellBlock := ⟨world.zoneValues z, some (world.zoneFormats z)⟩

/-- The values and formats a reference covers. -/
def block (target : Reference) : Except CellError CellBlock :=
  (world.resolve target).map world.zoneBlock

/-- The value of a reference. A range of one cell is that cell, and a reference that leads nowhere
has an error as its value. -/
def read (target : Reference) : Value :=
  match target with
  | .cell _ _ =>
    match world.resolve target with
    | .ok zone => world.value zone.topLeft
    | .error e => .error e
  | .range _ _ _ =>
    match world.block target with
    | .ok block => (block.values.only?).getD (.array block.values)
    | .error e => .error e

/-- The format of a reference. -/
def formatOfReference (target : Reference) : ResultFormat :=
  match world.resolve target with
  | .ok zone =>
    if zone.isSingle then .single (world.format zone.topLeft)
    else .grid (world.zoneFormats zone)
  | .error _ => .none

end Surroundings

/-- The format of an arithmetic result. The left one of two single formats wins, an array of
formats stands beside no single format, and nothing else agrees. -/
def ResultFormat.arithmetic : ResultFormat → ResultFormat → ResultFormat
  | .single a, .single b => .single (a <|> b)
  | .grid formats, .single Option.none => .grid formats
  | .single Option.none, .grid formats => .grid formats
  | _, _ => .none

/-- A call of a function that does not exist. -/
def CellError.unknownFunction (name : String) : CellError :=
  .because .name s!"Invalid formula: unknown function {name}"

namespace Expr

mutual

/-- The format that goes with the value of a formula. -/
def format (world : Surroundings) : Expr → ResultFormat
  | .literal _ _ => .none
  | .reference target _ _ => world.formatOfReference target
  | .unary .percent _ _ => .none
  | .unary _ operand _ => operand.format world
  | .binary operator left right _ =>
    if operator.keepsFormat then (left.format world).arithmetic (right.format world) else .none
  | .call name arguments _ =>
    match world.function? name with
    | some f => f.format (formatArguments world arguments)
    | none => .none
  | .array _ _ => .none

/-- The arguments of a call as far as formats go. -/
def formatArguments (world : Surroundings) : List Expr → List FormatArgument
  | [] => []
  | e :: rest => ⟨e, fun _ => e.format world⟩ :: formatArguments world rest

end

/-- The cells an expression covers as an argument, if it is a reference. -/
def covered (world : Surroundings) : Expr → Except CellError CellBlock
  | .reference target _ _ => world.block target
  | _ => .ok ⟨[], none⟩

mutual

/-- The value of a formula, and the calls made to find it. -/
def evaluate (world : Surroundings) : Expr → Evaluation Value
  | .literal value _ => pure value
  | .reference target _ _ => pure (world.read target)
  | .unary operator operand _ => do
    let v ← operand.evaluate world
    return operator.apply v
  | .binary operator left right _ => do
    let v ← left.evaluate world
    let w ← right.evaluate world
    return operator.apply v w
  | .call name arguments _ =>
    match world.function? name with
    | some f => f.call (evaluateArguments world arguments)
    | none => throw (.unknownFunction name)
  | .array rows _ => do
    let values ← evaluateRows world rows
    return .array values

/-- The arguments of a call. Each carries its evaluation; whether that counts is up to the
function. -/
def evaluateArguments (world : Surroundings) : List Expr → List Argument
  | [] => []
  | e :: rest =>
    ⟨e, e.evaluate world, none, fun _ => e.covered world, fun _ => e.format world⟩ ::
      evaluateArguments world rest

/-- The values of a row, from left to right. -/
def evaluateRow (world : Surroundings) : List Expr → Evaluation (List Value)
  | [] => pure []
  | e :: rest => do
    let v ← e.evaluate world
    let row ← evaluateRow world rest
    return v :: row

/-- The values of rows, from top to bottom. -/
def evaluateRows (world : Surroundings) : List (List Expr) → Evaluation (List (List Value))
  | [] => pure []
  | row :: rest => do
    let values ← evaluateRow world row
    let rows ← evaluateRows world rest
    return values :: rows

end

end Expr

end Spreadsheet
