import Spreadsheet.Function.Aggregate
import Spreadsheet.Function.Logic

/-!
# The function library

Functions on texts and arrays, and the table in which functions are looked up. Names are matched
without regard to the case of letters, and a function of a table stands before one of the library.
-/
namespace Spreadsheet

namespace Function

/-- All values joined to one text. -/
def concatenation : Function :=
  { plain "CONCAT" 1 [⟨"text", .range, false⟩] fun arguments => do
      let parts ← Argument.gather (fun v _ => v.asText.map fun s => [s]) arguments
      return .text ("".intercalate parts) with
    variadic := true }

/-- The format of swapped rows and columns. A format of its own stays with each value. -/
def transposedFormat : List FormatArgument → ResultFormat
  | [] => .none
  | a :: _ =>
    match a.format () with
    | .grid [[format]] => .single format
    | .grid formats => .grid formats.transpose
    | single => single

/-- Rows and columns swapped. -/
def transposition : Function :=
  { plain "TRANSPOSE" 1 [⟨"array", .range, false⟩] fun arguments => do
      let block ← match arguments with
        | a :: _ => a.block
        | [] => pure ⟨[], none⟩
      return (block.values.only?).getD (.array block.values.transpose) with
    ownFormat := some transposedFormat }

/-- The functions every workbook knows. -/
def library : List Function :=
  [transposition, choice, conjunction, disjunction, negation, sum, average, minimum, maximum,
    count, median, magnitude, concatenation]

/-- The function is known under a family and a name. -/
def isNamed (f : Function) (family name : String) : Bool :=
  Text.sameIgnoringCase f.family family && Text.sameIgnoringCase f.name name

/-- The function of a list that is known under a family and a name. -/
def find? (functions : List Function) (family name : String) : Option Function :=
  functions.find? fun f => f.isNamed family name

end Function

/-- The functions of one workbook beside the library. -/
structure FunctionTable where
  functions : List Function

namespace FunctionTable

/-- The table without functions. -/
def empty : FunctionTable := ⟨[]⟩

/-- Add a function, in place of one of the same family and name. -/
def register (table : FunctionTable) (f : Function) : FunctionTable :=
  ⟨f :: table.functions.filter fun g => !g.isNamed f.family f.name⟩

/-- The function of the table under a family and a name. -/
def get? (table : FunctionTable) (family name : String) : Option Function :=
  Function.find? table.functions family name

/-- The function under a family and a name, of the table or of the library. -/
def resolve? (table : FunctionTable) (family name : String) : Option Function :=
  table.get? family name <|> Function.find? Function.library family name

/-- The number of functions of the table. -/
def size (table : FunctionTable) : Nat := table.functions.length

end FunctionTable

end Spreadsheet
