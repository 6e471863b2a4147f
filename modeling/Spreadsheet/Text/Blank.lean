/-!
# Blank characters

The blanks are the twenty-five characters with the Unicode property White_Space.
-/
namespace Spreadsheet.Text

/-- Closed ranges of the blank characters, ascending and apart. -/
def blankRanges : List (Nat × Nat) :=
  [(0x9, 0xd), (0x20, 0x20), (0x85, 0x85), (0xa0, 0xa0), (0x1680, 0x1680), (0x2000, 0x200a),
    (0x2028, 0x2029), (0x202f, 0x202f), (0x205f, 0x205f), (0x3000, 0x3000)]

/-- The number lies in one of the closed ranges. -/
def inRanges (ranges : List (Nat × Nat)) (n : Nat) : Bool :=
  ranges.any fun range => decide (range.1 ≤ n) && decide (n ≤ range.2)

/-- The character is a blank. -/
def isBlank (c : Char) : Bool := inRanges blankRanges c.toNat

/-- Drop the blanks at both ends. -/
def trim (text : List Char) : List Char :=
  ((text.dropWhile isBlank).reverse.dropWhile isBlank).reverse

/-- Drop every blank. -/
def dropBlanks (text : List Char) : List Char := text.filter fun c => !isBlank c

/-- Drop the blanks at both ends of a string. -/
def trimmed (text : String) : String := String.ofList (trim text.toList)

end Spreadsheet.Text
