import Spreadsheet.Value

/-!
# Coercion of single values

Operators and functions take a value as a number, a text or a truth value. An error is passed
on, and an array is none of them.
-/
namespace Spreadsheet.Value

/-- An array where a single value is expected. -/
def arrayForSingle : CellError :=
  .because .value "Expected a single value, got an array."

/-- The value as a number. A text is read between blanks, and a text of blanks alone is zero. -/
def asNumber : Value → Except CellError Number
  | .number x => .ok x
  | .integer n => .ok (.ofFloat (ofInteger n))
  | .boolean b => .ok (if b then 1 else 0)
  | .empty => .ok 0
  | .text content =>
    let trimmed := Text.trim content.toList
    if trimmed.isEmpty then .ok 0
    else
      match Decimal.read? trimmed with
      | some x => .ok x
      | none => .error (.because .value
          s!"The value '{content}' cannot be converted to a number.")
  | .error e => .error e
  | .array _ => .error arrayForSingle

/-- The value as a text. -/
def asText : Value → Except CellError String
  | .error e => .error e
  | .array _ => .error arrayForSingle
  | v => .ok v.display

/-- The value as a truth value. -/
def asBoolean : Value → Except CellError Bool
  | .boolean b => .ok b
  | .number x => .ok (x.toFloat != 0)
  | .integer n => .ok (n != 0)
  | .empty => .ok false
  | .text content =>
    if Text.sameIgnoringCase content "TRUE" then .ok true
    else if Text.sameIgnoringCase content "FALSE" then .ok false
    else .error (.because .value s!"The value '{content}' cannot be converted to a boolean.")
  | .error e => .error e
  | .array _ => .error arrayForSingle

end Spreadsheet.Value
