import Spreadsheet.Reference.Basic
import Spreadsheet.Text.LetterCase

/-!
# Text of references

A sheet name stands before an exclamation mark, in quotes unless it is a plain word. Written
references read back; read ones may also have small letters, blanks, and corners in any order.
-/
namespace Spreadsheet

/-- The name needs no quotes: ASCII letters, digits, underscores and points, with no digit in
front. -/
def isPlainName (name : List Char) : Bool :=
  match name with
  | [] => false
  | c :: _ => !c.isDigit && name.all fun c => c.isAlphanum || c == '_' || c == '.'

/-- Write every quote twice. -/
def doubleQuotes (quote : Char) : List Char → List Char
  | [] => []
  | c :: rest =>
    if c = quote then c :: c :: doubleQuotes quote rest else c :: doubleQuotes quote rest

/-- A sheet name as it stands before the exclamation mark. -/
def sheetNameChars (name : List Char) : List Char :=
  if isPlainName name then name else '\'' :: doubleQuotes '\'' name ++ ['\'']

/-- A sheet name as a reference writes it. -/
def writtenSheetName (name : String) : String := String.ofList (sheetNameChars name.toList)

/-- Read a quoted sheet name after its opening quote, up to the exclamation mark behind its
closing quote. -/
def readQuotedName? : List Char → Option (List Char × List Char)
  | '\'' :: '\'' :: rest => (readQuotedName? rest).map fun (name, rest) => ('\'' :: name, rest)
  | '\'' :: '!' :: rest => some ([], rest)
  | '\'' :: _ => none
  | [] => none
  | c :: rest => (readQuotedName? rest).map fun (name, rest) => (c :: name, rest)

/-- Split at the last exclamation mark, if anything stands before it. -/
def splitLastMark? (text : List Char) : Option (List Char × List Char) :=
  let reversed := text.reverse
  match reversed.dropWhile (· != '!') with
  | _ :: c :: name => some ((c :: name).reverse, (reversed.takeWhile (· != '!')).reverse)
  | _ => none

/-- Split a sheet name off a reference. -/
def splitSheet (text : List Char) : Option (List Char) × List Char :=
  let quoted := match text with
    | '\'' :: rest => readQuotedName? rest
    | _ => none
  match quoted <|> splitLastMark? text with
  | some (name, rest) => (some name, rest)
  | none => (none, text)

/-- Why a text is no reference. -/
inductive ReferenceError where
  | cell (text : String)
  | range (text : String)
  | corner (text : String)
deriving DecidableEq, Repr

/-- The wording of a reference error. -/
def ReferenceError.message : ReferenceError → String
  | .cell text => s!"Invalid reference: Invalid cell reference: {text}"
  | .range text => s!"Invalid reference: Invalid range: {text}"
  | .corner text => s!"Invalid reference: Invalid range part: {text}"

namespace Corner

/-- A corner as a reference writes it, the column before the row. -/
def chars (c : Corner) : List Char :=
  let column := match c.column with
    | some axis => Coordinate.dollar axis.fixed ++ Column.letters axis.index
    | none => []
  let row := match c.row with
    | some axis => Coordinate.dollar axis.fixed ++ Nat.toDigits 10 (axis.index + 1)
    | none => []
  column ++ row

/-- Read a corner: a cell, one to three letters of a column, or the number of a row. -/
def read (text : List Char) : Except ReferenceError Corner :=
  match Coordinate.read? text with
  | some c => .ok (ofCoordinate c)
  | none =>
    let (fixed, body) := Coordinate.takeDollar text
    let found : Option Corner :=
      if body.isEmpty then none
      else if body.all Char.isAlpha then
        if 3 < body.length then none
        else (Column.ofLetters? (body.map Char.toUpper)).map fun column =>
          ⟨none, some ⟨column, fixed⟩⟩
      else if body.all Char.isDigit then
        match Decimal.ofDigits body with
        | row + 1 => if row + 1 < indexBound then some ⟨some ⟨row, fixed⟩, none⟩ else none
        | 0 => none
      else none
    match found with
    | some corner => .ok corner
    | none => .error (.corner (String.ofList text))

end Corner

namespace Reference

/-- A reference as a formula writes it. -/
def chars (r : Reference) : List Char :=
  let sheet := match r.sheet with
    | some name => sheetNameChars name.toList ++ ['!']
    | none => []
  match r with
  | .cell _ c => sheet ++ c.chars
  | .range _ start stop => sheet ++ start.chars ++ ':' :: stop.chars

/-- A reference as a formula writes it, as a string. -/
def text (r : Reference) : String := String.ofList r.chars

/-- Read a range whose blanks are gone: two corners around the first colon. -/
def readRange (sheet : Option String) (text : List Char) : Except ReferenceError Reference := do
  let start ← Corner.read (text.takeWhile (· != ':'))
  let stop ← Corner.read ((text.dropWhile (· != ':')).drop 1)
  if start.isBare || stop.isBare then throw (.range (String.ofList text))
  return between sheet start stop

/-- Read a reference. Blanks around it and within it do not count, those of a sheet name do. -/
def read (written : List Char) : Except ReferenceError Reference :=
  let (name, rest) := splitSheet (Text.trim written)
  let sheet := name.map String.ofList
  let compact := Text.dropBlanks rest
  if compact.contains ':' then readRange sheet compact
  else
    match Coordinate.read? compact with
    | some c => .ok (.cell sheet c)
    | none => .error (.cell (String.ofList written))

end Reference

end Spreadsheet
