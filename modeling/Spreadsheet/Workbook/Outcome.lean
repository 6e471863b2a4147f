import Spreadsheet.Evaluation.Basic
import Spreadsheet.Recalculation.Spills

/-!
# Outcomes of formulas

The value and the format of a formula are found separately and then brought together. The result
of a function call must have a format of the same shape; any other formula has its format spread
over its result.
-/
namespace Spreadsheet

/-- What a formula comes to: a single value, or an array that is to be spilled. -/
inductive Outcome where
  | single (value : Value) (format : Option String)
  | array (values : Grid Value) (formats : Grid (Option String))

namespace Outcome

/-- The formula comes to an error about itself. -/
def fault (message : String) : Outcome := .single (.error (.ofFormula message)) none

/-- The formula comes to an error. -/
def failure (e : CellError) : Outcome := .single (.error e) none

/-- The formula is on a cycle. -/
def circular : Outcome := failure (.because .circular "Circular reference")

/-- The formula comes to nothing, and the request that evaluates it does not end. No formula that
comes to something comes to an empty value. -/
def stuck : Outcome := .single .empty none

/-- Bring an array of values and a format together. -/
def ofArray (ofCall : Bool) (values : Grid Value) (format : ResultFormat) : Outcome :=
  let (rows, columns) := Grid.extent values
  let spread (formats : Grid (Option String)) : Outcome :=
    .array (values.map fun row => row.map Value.orZero) formats
  match format with
  | .single none => spread (Grid.build rows columns fun _ _ => none)
  | .single (some format) =>
    if ofCall then fault "A scalar format should never be associated with a matrix value"
    else spread (Grid.build rows columns fun _ _ => some format)
  | .grid formats =>
    if formats.length == rows && formats.all (·.length == columns) then spread formats
    else if ofCall then
      fault "The format matrix does not have the dimensions of the value matrix"
    else spread (Grid.build rows columns fun row column => (formats.at? row column).join)

/-- Bring a single value and a format together. -/
def ofSingle (ofCall : Bool) (value : Value) (format : ResultFormat) : Outcome :=
  match format with
  | .single format => .single value.orZero format
  | .grid formats =>
    if ofCall then fault "A format matrix should never be associated with a scalar value"
    else .single value.orZero formats.first?.join

/-- Bring the value and the format of a formula together. An array of one entry is that entry. A
formula is stuck with an entry that is itself an array without rows: it has no extent to spill
over. -/
def ofResult (e : Expr) (value : Value) (format : ResultFormat) : Outcome :=
  let value := match value.single? with
    | .ok v => v
    | .error _ => value
  let format := match format with
    | .grid [[format]] => .single format
    | format => format
  match value with
  | .error e => failure e
  | .array values =>
    if e.isReference then
      fault "A range cannot be the result of a formula, a single value is expected."
    else if values.isEmpty then stuck
    else ofArray e.isCall values format
  | value => ofSingle e.isCall value format

end Outcome

/-- Why an array of `rows` rows and `columns` columns was not spilled. -/
def Collision.report : Collision → String
  | .bounds true true => more "columns and rows."
  | .bounds false true => more "columns."
  | .bounds _ _ => more "rows."
  | .content found => taken found
  | .spill found _ => taken found
where
  /-- The sheet is too small. -/
  more (what : String) : String :=
    "Result couldn't be automatically expanded. Please insert more " ++ what
  /-- A position is taken. -/
  taken (found : Position) : String :=
    s!"Array result was not expanded because it would overwrite data in {found.name}."

/-- The error in place of an array that was not spilled, with the extent the array needs. -/
def CellError.ofCollision (collision : Collision) (rows columns : Nat) : CellError :=
  ⟨.spill, some collision.report, some (rows, columns)⟩

end Spreadsheet
