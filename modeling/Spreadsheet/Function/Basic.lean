import Spreadsheet.Evaluation.Traced
import Spreadsheet.Formula.Expr
import Spreadsheet.Value

/-!
# Functions

A function has a name, a description of its parameters and a body that works on its arguments. An
argument is read on demand, as a value, as a single value or as a block of cells, and reading it
again evaluates it again, unless it was settled before the body ran.
-/
namespace Spreadsheet

/-- The format of a result: one for all of it, or one for each entry of an array. -/
inductive ResultFormat where
  | single (format : Option String)
  | grid (formats : Grid (Option String))
deriving DecidableEq, Repr

namespace ResultFormat

/-- No format. -/
def none : ResultFormat := .single .none

/-- The format of the result as a whole, or of its first entry. -/
def first : ResultFormat → Option String
  | .single format => format
  | .grid formats => formats.first?.join

end ResultFormat

/-- Rows of values, with formats if there are any. -/
structure CellBlock where
  values : Grid Value
  formats : Option (Grid (Option String))

namespace CellBlock

/-- The number of rows and columns. -/
def extent (b : CellBlock) : Nat × Nat := b.values.extent

/-- The value at a place, empty where there is none. -/
def value (b : CellBlock) (row column : Nat) : Value := (b.values.at? row column).getD .empty

/-- The format at a place. -/
def format (b : CellBlock) (row column : Nat) : Option String :=
  (b.formats.bind fun formats => formats.at? row column).join

/-- The formats at all places of the extent. -/
def allFormats (b : CellBlock) : Grid (Option String) :=
  Grid.build b.extent.1 b.extent.2 b.format

/-- The values at all places of the extent, row by row. -/
def cells (b : CellBlock) : List Value :=
  (Grid.build b.extent.1 b.extent.2 b.value).flatten

end CellBlock

/-- How a parameter takes its argument. -/
inductive ParameterShape where
  | single
  | range
deriving DecidableEq, Repr

/-- A parameter of a function. -/
structure Parameter where
  name : String
  shape : ParameterShape
  optional : Bool
deriving DecidableEq, Repr

/-- A larger array where a single value is expected. -/
def CellError.arrayForValue (rows columns : Nat) : CellError :=
  .ofFormula s!"Expected a single value, got a {rows}x{columns} array."

/-- The single value of a value. -/
def Value.asSingle (v : Value) : Except CellError Value :=
  match v.single? with
  | .ok w => .ok w
  | .error (rows, columns) => .error (.arrayForValue rows columns)

/-- An argument of a call: its expression, what evaluating the expression does, the value it was
settled to before, the cells a reference covers, and the format of the expression. -/
structure Argument where
  expr : Expr
  outcome : Evaluation Value
  settled : Option Value
  covered : Unit → Except CellError CellBlock
  format : Unit → ResultFormat

namespace Argument

/-- The argument is a literal. -/
def literal? (a : Argument) : Option Value :=
  match a.expr with
  | .literal v _ => some v
  | _ => none

/-- The value of an argument. A literal and a settled argument are not evaluated. -/
def value (a : Argument) : Evaluation Value :=
  match a.literal? <|> a.settled with
  | some v => pure v
  | none => a.outcome

/-- The single value of an argument. -/
def single (a : Argument) : Evaluation Value := do
  let v ← a.value
  .ofExcept v.asSingle

/-- Evaluate an argument once and keep its single value. A larger array is refused; an error is
left for the function to meet again. -/
def settle (a : Argument) : Evaluation Argument :=
  if a.literal?.isSome then pure a
  else do
    match ← Evaluation.observe a.outcome with
    | .error _ => return a
    | .ok v =>
      let w ← Evaluation.ofExcept v.asSingle
      return { a with settled := some w }

/-- The cells of an argument: those a reference covers, or the entries of its value. -/
def block (a : Argument) : Evaluation CellBlock :=
  if a.expr.isReference then .ofExcept (a.covered ())
  else do
    let v ← a.value
    let values := match v with
      | .array rows => rows
      | v => [[v]]
    let formats := match a.format () with
      | .grid formats => some formats
      | .single _ => none
    return ⟨values, formats⟩

/-- The argument is left out. -/
def isOmitted (a : Argument) : Bool := a.expr.isOmitted

/-- The values an argument contributes, and whether each comes out of a reference or an array. An
omitted argument contributes none. -/
def items (a : Argument) : Evaluation (List (Value × Bool)) :=
  if a.isOmitted then pure []
  else do
    match ← a.value with
    | .array rows => return rows.flatten.map fun v => (v, true)
    | v => return [(v, a.expr.isReference)]

/-- What `pick` takes from the values of the arguments, in order. The first error ends it, and the
arguments after it are not read. -/
def gather {α : Type} (pick : Value → Bool → Except CellError (List α)) :
    List Argument → Evaluation (List α)
  | [] => pure []
  | a :: rest => do
    let items ← a.items
    let picked ← Evaluation.ofExcept (items.mapM fun item => pick item.1 item.2)
    let others ← gather pick rest
    return picked.flatten ++ others

end Argument

/-- An argument as far as its format goes. -/
structure FormatArgument where
  expr : Expr
  format : Unit → ResultFormat

/-- A function. A variadic function repeats its last parameter; a short-circuiting one evaluates
the arguments it needs and settles none. -/
structure Function where
  name : String
  family : String
  leastArguments : Nat
  variadic : Bool
  shortCircuit : Bool
  /-- The result has the format of the first argument. -/
  keepsFormat : Bool
  parameters : List Parameter
  body : List Argument → Evaluation Value
  /-- The format of the result, where it is neither absent nor that of the first argument. -/
  ownFormat : Option (List FormatArgument → ResultFormat)

namespace Function

/-- A function of no special kind. -/
def plain (name : String) (leastArguments : Nat) (parameters : List Parameter)
    (body : List Argument → Evaluation Value) : Function where
  name := name
  family := ""
  leastArguments := leastArguments
  variadic := false
  shortCircuit := false
  keepsFormat := false
  parameters := parameters
  body := body
  ownFormat := none

/-- The parameter of the argument at an index. -/
def parameter? (f : Function) (index : Nat) : Option Parameter :=
  f.parameters[index]? <|> if f.variadic then f.parameters.getLast? else none

/-- The format of the result of a call. -/
def format (f : Function) (arguments : List FormatArgument) : ResultFormat :=
  match f.ownFormat with
  | some own => own arguments
  | none =>
    if f.keepsFormat then .single (arguments.head?.bind fun a => (a.format ()).first)
    else .none

/-- A call with the wrong number of arguments. -/
def arityError (f : Function) (expected : Nat) (bound : String) (got : Nat) : CellError :=
  .ofFormula (s!"Invalid number of arguments for the {f.name} function. " ++
    s!"Expected {expected} {bound}, but got {got} instead.")

/-- Settle the arguments that are taken as single values, counting parameters from `index`. -/
def settleFrom (f : Function) (index : Nat) : List Argument → Evaluation (List Argument)
  | [] => pure []
  | a :: rest => do
    let a ← if (f.parameter? index).map Parameter.shape = some .single then a.settle else pure a
    let rest ← settleFrom f (index + 1) rest
    return a :: rest

/-- Call a function: check the number of arguments, settle what is taken as a single value, and
run the body. -/
def call (f : Function) (arguments : List Argument) : Evaluation Value := do
  if arguments.length < f.leastArguments then
    throw (f.arityError f.leastArguments "minimum" arguments.length)
  if !f.variadic && decide (f.parameters.length < arguments.length) then
    throw (f.arityError f.parameters.length "maximum" arguments.length)
  let arguments ← if f.shortCircuit then pure arguments else f.settleFrom 0 arguments
  Evaluation.record f.name
  f.body arguments

end Function

end Spreadsheet
