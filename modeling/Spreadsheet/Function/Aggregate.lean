import Spreadsheet.Function.Basic
import Spreadsheet.Coercion

/-!
# Aggregates of numbers

Aggregates take the numbers of all their arguments. Texts and truth values count where they are
written directly and are skipped where they come out of cells, and the first error is the result.
-/
namespace Spreadsheet.Function

/-- The number an aggregate takes from a value. -/
def numberOf (v : Value) (fromCells : Bool) : Except CellError (List Number) :=
  match v with
  | .error e => .error e
  | .number x => .ok [x]
  | .integer n => .ok [.ofFloat (Value.ofInteger n)]
  | v => if fromCells then .ok [] else v.asNumber.map fun x => [x]

/-- The sum of numbers, from left to right. The sum of no numbers is negative zero, to which
adding any number gives that number. -/
def sumOf (numbers : List Number) : Number := numbers.foldl (· + ·) (Number.negate 0)

/-- The number that the numbers are joined to by `f` from the left, zero if there are none. -/
def joinAll (f : Number → Number → Number) : List Number → Number
  | [] => 0
  | x :: rest => rest.foldl f x

/-- The middle of the numbers in order, or the mean of the middle two. -/
def medianOf (numbers : List Number) : Number :=
  let sorted := numbers.mergeSort fun x y => decide (x.orderKey ≤ y.orderKey)
  let middle := sorted.length / 2
  if sorted.length % 2 = 0 then
    ((sorted[middle - 1]?).getD 0 + (sorted[middle]?).getD 0) / 2
  else (sorted[middle]?).getD 0

/-- An aggregate whose result has the format of the first argument. -/
def aggregate (name : String) (f : List Number → Except CellError Number) : Function :=
  { plain name 1 [⟨"value", .range, false⟩] fun arguments => do
      let numbers ← Argument.gather numberOf arguments
      let x ← Evaluation.ofExcept (f numbers)
      return .number x with
    variadic := true
    keepsFormat := true }

/-- The sum of numbers. -/
def sum : Function := aggregate "SUM" fun numbers => .ok (sumOf numbers)

/-- The mean of numbers. -/
def average : Function :=
  aggregate "AVERAGE" fun numbers =>
    if numbers.isEmpty then
      .error (.because .division
        "Evaluation of function AVERAGE caused a divide by zero error.")
    else .ok (sumOf numbers / .ofFloat (.ofNat numbers.length))

/-- The smallest of numbers. -/
def minimum : Function := aggregate "MIN" fun numbers => .ok (joinAll Number.smaller numbers)

/-- The largest of numbers. -/
def maximum : Function := aggregate "MAX" fun numbers => .ok (joinAll Number.larger numbers)

/-- The median of numbers. -/
def median : Function :=
  aggregate "MEDIAN" fun numbers =>
    if numbers.isEmpty then .error (.because .number "MEDIAN has no valid input data.")
    else .ok (medianOf numbers)

/-- What a count takes from a value: numbers, and what is written directly and reads as one. -/
def countOf (v : Value) (fromCells : Bool) : Except CellError (List Unit) :=
  match v with
  | .number _ | .integer _ => .ok [()]
  | .text _ | .boolean _ =>
    if fromCells then .ok [] else .ok (if v.asNumber.toOption.isSome then [()] else [])
  | _ => .ok []

/-- The number of numbers. Errors among the values are skipped. -/
def count : Function :=
  { plain "COUNT" 1 [⟨"value", .range, false⟩] fun arguments => do
      let found ← Argument.gather countOf arguments
      return .number (.ofFloat (.ofNat found.length)) with
    variadic := true }

/-- The magnitude of a number. -/
def magnitude : Function :=
  { plain "ABS" 1 [⟨"value", .single, false⟩] fun arguments => do
      let v ← match arguments with
        | a :: _ => a.single
        | [] => pure .empty
      let x ← Evaluation.ofExcept v.asNumber
      return .number x.magnitude with
    keepsFormat := true }

end Spreadsheet.Function
