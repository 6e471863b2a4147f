import Spreadsheet.Redirection.Shift
import Spreadsheet.Sheet.Cell

/-!
# The clipboard

A copy takes a snapshot of cells. A cut only remembers zones, whose cells are taken when they are
pasted.
-/
namespace Spreadsheet

/-- A copied cell: its row and column counted from the origin of the clip, what was typed into it,
the format chosen for it, and the value and format it showed. -/
structure ClipCell where
  row : Nat
  column : Nat
  content : Content
  format : Option String
  value : Value
  shownFormat : Option String

/-- Copied cells. The origin, the rows and the columns are those of the smallest zone around
them. -/
structure Clip where
  origin : Position
  rows : Nat
  columns : Nat
  cells : List ClipCell

/-- What waits to be pasted. -/
inductive Clipboard where
  | copied (clip : Clip)
  | cut (zones : List Zone)

namespace Clipboard

/-- The sheet the cells are from. -/
def sheet : Clipboard → SheetId
  | copied clip => clip.origin.sheet
  | cut zones => (zones.head?.map Zone.sheet).getD 0

/-- The zone moves or changes under a shift that starts at or before its far border. -/
def reaches (s : Shift) (z : Zone) : Bool :=
  z.sheet == s.sheet &&
    match s.direction with
    | .rows => decide (s.start ≤ z.bottom)
    | .columns => decide (s.start ≤ z.right)

/-- A shift that reaches a cut zone ends the cut. A copy is not affected. -/
def isEndedBy (s : Shift) : Clipboard → Bool
  | copied _ => false
  | cut zones => zones.any (reaches s)

end Clipboard

/-- What is pasted: content and format, the value that was shown, or the format that was shown. -/
inductive PasteMode where
  | everything
  | value
  | format
deriving DecidableEq, Repr

/-- The smallest zone around a zone and further zones of its sheet. -/
def Zone.hull (z : Zone) (zones : List Zone) : Zone :=
  zones.foldl
    (fun hull other =>
      .span hull.sheet (min hull.top other.top) (min hull.left other.left)
        (max hull.bottom other.bottom) (max hull.right other.right))
    z

end Spreadsheet
