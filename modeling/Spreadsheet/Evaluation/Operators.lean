import Spreadsheet.Coercion
import Spreadsheet.Formula.Expr

/-!
# Operators on values

Arithmetic, joining and comparison of single values, and their extension to arrays entry by entry.
A dimension of one stretches to the extent of the other operand.
-/
namespace Spreadsheet

namespace Value

/-- The number cut to an integer towards zero. -/
def wholePart (x : Float) : Float := if x < 0 then x.ceil else x.floor

/-- Apply a function of numbers to a value. -/
def mapNumber (f : Float → Float) (v : Value) : Value :=
  match v.asNumber with
  | .ok x => ofResult (f x.toFloat)
  | .error e => .error e

/-- Apply a function of two numbers to two values. Of two errors the left one is the result. -/
def mapNumbers (f : Float → Float → Value) (v w : Value) : Value :=
  match v.asNumber, w.asNumber with
  | .ok x, .ok y => f x.toFloat y.toFloat
  | .error e, _ => .error e
  | _, .error e => .error e

/-- The quotient of two numbers. -/
def quotient (x y : Float) : Value :=
  if y == 0 then .error (.because .division "Division by zero.") else ofResult (x / y)

/-- The power of two numbers. A negative base with a fractional exponent has no real power. -/
def power (x y : Float) : Value :=
  if x < 0 && y - wholePart y != 0 then .error (.plain .number) else ofResult (x.pow y)

/-- Two texts one after the other. -/
def join (v w : Value) : Value :=
  match v.asText, w.asText with
  | .ok a, .ok b => .text (a ++ b)
  | .error e, _ => .error e
  | _, .error e => .error e

/-- The order of two numbers; a number that compares with nothing counts as equal. -/
def compareNumbers (x y : Float) : Ordering :=
  if x < y then .lt else if y < x then .gt else .eq

/-- The order of two values that are no errors: numbers before texts before truth values. Texts
are compared without regard to letter case, and an empty value counts as the empty text beside a
text and as zero elsewhere. -/
def order : Value → Value → Ordering
  | .text a, .text b => compare (Text.lowercase a) (Text.lowercase b)
  | .boolean a, .boolean b => compare a b
  | .text _, .boolean _ => .lt
  | .boolean _, .text _ => .gt
  | .text a, .empty => compare a ""
  | .empty, .text b => compare "" b
  | .text _, _ => .gt
  | _, .text _ => .lt
  | .boolean _, .number _ | .boolean _, .integer _ => .gt
  | .number _, .boolean _ | .integer _, .boolean _ => .lt
  | v, w =>
    compareNumbers (v.asNumber.toOption.getD 0).toFloat (w.asNumber.toOption.getD 0).toFloat

/-- Compare two values by a condition on their order. An error is the result, the left one of
two. -/
def compareBy (holds : Ordering → Bool) (v w : Value) : Value :=
  match v, w with
  | .error e, _ => .error e
  | _, .error e => .error e
  | v, w => .boolean (holds (v.order w))

/-- The common length of two dimensions, if they agree or one of them is one. -/
def commonLength? (m n : Nat) : Option Nat :=
  if m = n ∨ n = 1 then some m else if m = 1 then some n else none

/-- The entry of an array at a place of a larger one: a dimension of one is repeated, and what is
missing is empty. -/
def stretched (rows : Grid Value) (row column : Nat) : Value :=
  let (height, width) := rows.extent
  (rows.at? (if height = 1 then 0 else row) (if width = 1 then 0 else column)).getD .empty

/-- Combine two arrays entry by entry. -/
def combine (f : Value → Value → Value) (left right : Grid Value) : Value :=
  match commonLength? left.extent.1 right.extent.1, commonLength? left.extent.2 right.extent.2 with
  | some rows, some columns =>
    .array (Grid.build rows columns fun row column =>
      f (stretched left row column) (stretched right row column))
  | _, _ => .error (.because .value "Array arguments are of different size.")

/-- Extend a function of single values to arrays. -/
def lift (f : Value → Value) : Value → Value
  | .array rows => .array (rows.map fun row => row.map f)
  | v => f v

/-- Extend a function of two single values to arrays, a single value being an array of one
entry. -/
def lift₂ (f : Value → Value → Value) : Value → Value → Value
  | .array left, .array right => combine f left right
  | .array left, w => combine f left [[w]]
  | v, .array right => combine f [[v]] right
  | v, w => f v w

end Value

namespace UnaryOperator

/-- The operator on a single value. -/
def applySingle : UnaryOperator → Value → Value
  | plus => Value.mapNumber id
  | minus => Value.mapNumber fun x => -x
  | percent => Value.mapNumber fun x => x / 100
  | other symbol => fun _ => .error (.ofFormula s!"Unary op '{symbol}'")

/-- The operator on any value. -/
def apply (operator : UnaryOperator) : Value → Value := Value.lift operator.applySingle

end UnaryOperator

namespace BinaryOperator

/-- The operator on single values, if it is known. -/
def applySingle? : BinaryOperator → Option (Value → Value → Value)
  | plus => some (Value.mapNumbers fun x y => .ofResult (x + y))
  | minus => some (Value.mapNumbers fun x y => .ofResult (x - y))
  | times => some (Value.mapNumbers fun x y => .ofResult (x * y))
  | divide => some (Value.mapNumbers Value.quotient)
  | power => some (Value.mapNumbers Value.power)
  | join => some Value.join
  | equal => some (Value.compareBy Ordering.isEq)
  | notEqual => some (Value.compareBy Ordering.isNe)
  | less => some (Value.compareBy Ordering.isLT)
  | greater => some (Value.compareBy Ordering.isGT)
  | atMost => some (Value.compareBy Ordering.isLE)
  | atLeast => some (Value.compareBy Ordering.isGE)
  | other _ => none

/-- The operator on any values. -/
def apply (operator : BinaryOperator) (v w : Value) : Value :=
  match operator.applySingle? with
  | some f => Value.lift₂ f v w
  | none => .error (.ofFormula s!"Binary op '{operator.symbol}'")

/-- The result of the operator has the formats of its operands. -/
def keepsFormat : BinaryOperator → Bool
  | plus | minus | times | divide | power => true
  | _ => false

end BinaryOperator

end Spreadsheet
