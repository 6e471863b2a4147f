import Spreadsheet.Value
import Spreadsheet.Serial

/-!
# Display of values

A format is a pattern. `0` with places after a point, thousands separated by `#,##0` and a percent
sign at the end is a number pattern; a pattern with a letter `y` or `d` shows the number as a
date. Any other pattern leaves the number as it is.
-/
namespace Spreadsheet

/-- What a number pattern asks for. -/
structure NumberPattern where
  places : Nat
  grouped : Bool
  percent : Bool
deriving DecidableEq, Repr

namespace NumberPattern

/-- Read a number pattern, nothing more and nothing less. -/
def read? (format : List Char) : Option NumberPattern :=
  let percent := format.getLast? == some '%'
  let body := if percent then format.dropLast else format
  let grouped := body.take 4 == ['#', ',', '#', '#']
  let body := if grouped then body.drop 4 else body
  match body with
  | ['0'] => some ⟨0, grouped, percent⟩
  | '0' :: '.' :: places =>
    if !places.isEmpty && places.all (· == '0') then some ⟨places.length, grouped, percent⟩
    else none
  | _ => none

/-- Digits with a comma before each group of three, counted from the end. -/
def group : List Char → List Char
  | [] => []
  | c :: rest => c :: (if rest ≠ [] ∧ rest.length % 3 = 0 then ',' :: group rest else group rest)

/-- The number as the pattern shows it. The sign is left out where only zeros are shown. -/
def display (pattern : NumberPattern) (x : Float) : String :=
  let scaled := if pattern.percent then x * 100 else x
  let digits := (Decimal.fixedText pattern.places scaled).toList
  let whole := digits.takeWhile (· != '.')
  let shown := (if pattern.grouped then group whole else whole) ++ digits.dropWhile (· != '.')
  let isZero := shown.all fun c => c == '0' || c == '.' || c == ','
  let sign := if scaled < 0 && !isZero then ['-'] else []
  String.ofList (sign ++ shown ++ if pattern.percent then ['%'] else [])

end NumberPattern

namespace DatePattern

/-- The pattern shows numbers as dates. -/
def isDatePattern (format : List Char) : Bool :=
  format.any fun c => c.toLower == 'y' || c.toLower == 'd'

/-- Decimal digits filled up with zeros to a width, the sign counted in. -/
def padded (width : Nat) (n : Int) : List Char :=
  let digits := Nat.toDigits 10 n.natAbs
  let sign := if n < 0 then ['-'] else []
  sign ++ List.replicate (width - sign.length - digits.length) '0' ++ digits

/-- What a run of one letter of a date pattern shows: year, month or day, at full or short
length, and any other character itself. -/
def field (date : Date) (run : List Char) : List Char :=
  match run.head?.map Char.toLower with
  | some 'y' => if 4 ≤ run.length then padded 4 date.year else padded 2 (date.year % 100)
  | some 'm' => padded (if 2 ≤ run.length then 2 else 1) date.month
  | some 'd' => padded (if 2 ≤ run.length then 2 else 1) date.day
  | _ => run

/-- The runs of equal characters of a pattern, letters compared without regard to case. -/
def runs (format : List Char) : List (List Char) :=
  format.splitBy fun c d => c.toLower == d.toLower

/-- The number as a date, if it has one. The pattern is to consist of ASCII characters: runs are
measured in bytes, and a pattern with any other character cannot be shown at all. -/
def display? (format : List Char) (x : Float) : Option String :=
  (Moment.ofSerial? x).map fun moment =>
    String.ofList ((runs format).flatMap (field moment.date))

end DatePattern

/-- A number under a format. -/
def formatNumber (x : Number) (format : Option String) : String :=
  match format with
  | none => Decimal.text x
  | some format =>
    match NumberPattern.read? format.toList with
    | some pattern => pattern.display x.toFloat
    | none =>
      if DatePattern.isDatePattern format.toList then
        (DatePattern.display? format.toList x.toFloat).getD (Decimal.text x)
      else Decimal.text x

/-- A value as a cell shows it under a format. Of an array the first entry is shown. -/
def Value.shown (format : Option String) : Value → String
  | .integer n => formatNumber (.ofFloat (Value.ofInteger n)) format
  | .number x => formatNumber x format
  | .array ((v :: _) :: _) => v.shown format
  | .array _ => ""
  | v => v.display

end Spreadsheet
