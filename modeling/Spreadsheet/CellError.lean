import Spreadsheet.Text.LetterCase

/-!
# Error values

A formula that fails leaves an error in its cell in place of a value. An error has a kind, whose
code the cell shows, often an explanation, and for an array that found no room the extent it
needs.
-/
namespace Spreadsheet

/-- The kinds of errors a cell can show. -/
inductive ErrorKind where
  | null
  | reference
  | name
  | value
  | division
  | notAvailable
  | number
  | general
  | spill
  | circular
deriving DecidableEq, Repr

namespace ErrorKind

/-- The code a cell shows. -/
def code : ErrorKind → String
  | null => "#NULL!"
  | reference => "#REF"
  | name => "#NAME?"
  | value => "#VALUE!"
  | division => "#DIV/0!"
  | notAvailable => "#N/A"
  | number => "#NUM!"
  | general => "#ERROR"
  | spill => "#SPILL!"
  | circular => "#CIRC!"

/-- Every kind. -/
def all : List ErrorKind :=
  [null, reference, name, value, division, notAvailable, number, general, spill, circular]

/-- The kind whose code is typed, in any letter case and between any blanks. The two codes that
end without a mark may be typed with an exclamation mark. -/
def ofCode? (text : String) : Option ErrorKind :=
  let typed := Text.upperAscii (Text.trimmed text)
  all.find? fun kind =>
    typed == kind.code || ((kind == reference || kind == general) && typed == kind.code ++ "!")

end ErrorKind

/-- An error value: its kind, an explanation, and the extent, in rows and columns, that a blocked
array needs. -/
structure CellError where
  kind : ErrorKind
  message : Option String
  extent : Option (Nat × Nat)
deriving DecidableEq, Repr

namespace CellError

/-- An error with its kind alone. -/
def plain (kind : ErrorKind) : CellError := ⟨kind, none, none⟩

/-- An error with an explanation. -/
def because (kind : ErrorKind) (message : String) : CellError := ⟨kind, some message, none⟩

/-- A reference that leads nowhere. -/
def invalidReference : CellError := because .reference "Invalid reference"

/-- A formula that is wrong in itself. -/
def ofFormula (message : String) : CellError := because .general message

/-- The error that a typed code stands for; an unknown code is a general error about it. -/
def ofCode (text : String) : CellError :=
  match ErrorKind.ofCode? text with
  | some .reference => invalidReference
  | some kind => plain kind
  | none => because .general s!"Unknown error {text}"

/-- The explanation, or nothing. -/
def explanation (e : CellError) : String := e.message.getD ""

/-- The whole error on one line. -/
def report (e : CellError) : String :=
  let message := match e.message with
    | some message => ": " ++ message
    | none => ""
  let extent := match e.extent with
    | some (rows, columns) => s!" [spill {rows}x{columns}]"
    | none => ""
  e.kind.code ++ message ++ extent

end CellError

end Spreadsheet
