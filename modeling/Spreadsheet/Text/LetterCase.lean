import Spreadsheet.Text.Blank
import Spreadsheet.Text.CaseTable

/-!
# Letter case

Names of sheets and functions and the codes of errors are matched without regard to the case of
ASCII letters. Texts are compared by their full Unicode lower-case form.
-/
namespace Spreadsheet.Text

/-- Replace the small ASCII letters by capitals. -/
def upperAscii (text : String) : String := text.map Char.toUpper

/-- The texts are equal up to the case of ASCII letters. -/
def sameIgnoringCase (left right : String) : Bool := upperAscii left == upperAscii right

/-- The small letter of a capital, and every other character itself. -/
def lowerLetter (c : Char) : Char :=
  if c.toNat < 0x80 then c.toLower
  else
    match capitalRuns.find? fun (first, last, step, _) =>
      decide (first ≤ c.toNat) && decide (c.toNat ≤ last) && (c.toNat - first) % step == 0 with
    | some (_, _, _, distance) => Char.ofNat (c.toNat + distance).toNat
    | none => c

/-- The first character that does not count as ignorable exists and has case. -/
def meetsCased (text : List Char) : Bool :=
  match text.dropWhile fun c => inRanges caseIgnorableRanges c.toNat with
  | c :: _ => inRanges casedRanges c.toNat
  | [] => false

/-- Lower-case form of `text` after the characters `before`, the latest first. A capital sigma at
the end of a word becomes the final form; a dotted capital I keeps its dot as a mark. -/
def lowerAfter (before : List Char) : List Char → List Char
  | [] => []
  | c :: rest =>
    let small :=
      if c == 'Σ' then [if meetsCased before && !meetsCased rest then 'ς' else 'σ']
      else if c == 'İ' then ['i', '\u0307']
      else [lowerLetter c]
    small ++ lowerAfter (c :: before) rest

/-- The Unicode lower-case form of a text. -/
def lowercase (text : String) : String := String.ofList (lowerAfter [] text.toList)

end Spreadsheet.Text
