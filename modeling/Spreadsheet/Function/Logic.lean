import Spreadsheet.Function.Basic
import Spreadsheet.Coercion

/-!
# Logical functions
-/
namespace Spreadsheet.Function

/-- The value of one of two branches, only that one evaluated. A missing branch is false and an
omitted one zero. -/
def branch : Option Argument → Evaluation Value
  | none => pure (.boolean false)
  | some a => if a.isOmitted then pure (.number 0) else a.value

/-- Choose between two branches by a condition. -/
def choice : Function :=
  { plain "IF" 2 [⟨"logical_test", .single, false⟩, ⟨"value_if_true", .range, true⟩,
        ⟨"value_if_false", .range, true⟩] fun arguments => do
      let v ← match arguments with
        | a :: _ => a.single
        | [] => pure .empty
      let condition ← Evaluation.ofExcept v.asBoolean
      branch arguments[if condition then 1 else 2]? with
    shortCircuit := true }

/-- The truth value taken from a value. Texts and empty values from cells are skipped. -/
def truthOf (v : Value) (fromCells : Bool) : Except CellError (List Bool) :=
  match v with
  | .error e => .error e
  | .boolean _ | .number _ | .integer _ => v.asBoolean.map fun b => [b]
  | .empty | .text _ => if fromCells then .ok [] else v.asBoolean.map fun b => [b]
  | .array _ => v.asBoolean.map fun b => [b]

/-- A function of the truth values of all arguments, of which there must be one. -/
def logical (name : String) (f : List Bool → Bool) : Function :=
  { plain name 1 [⟨"logical", .range, false⟩] fun arguments => do
      let truths ← Argument.gather truthOf arguments
      if truths.isEmpty then
        throw (.because .value s!"{name} received no logical values.")
      return .boolean (f truths) with
    variadic := true }

/-- All truth values are true. -/
def conjunction : Function := logical "AND" fun truths => truths.all id

/-- One truth value is true. -/
def disjunction : Function := logical "OR" fun truths => truths.any id

/-- The opposite truth value. -/
def negation : Function :=
  plain "NOT" 1 [⟨"logical", .single, false⟩] fun arguments => do
    let v ← match arguments with
      | a :: _ => a.single
      | [] => pure .empty
    let b ← Evaluation.ofExcept v.asBoolean
    return .boolean !b

end Spreadsheet.Function
