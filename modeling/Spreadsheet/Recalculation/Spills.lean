import Spreadsheet.Address.Zone
import Spreadsheet.Value

/-!
# Spilled arrays

A formula whose result is an array claims the zone below and to the right of its cell, its anchor.
A claim that meets something is blocked. Every position of a claimed zone leads to its anchor,
which keeps the values and formats of the zone.
-/
namespace Spreadsheet

/-- What became of the array of an anchor. -/
inductive SpillState where
  | spilled (zone : Zone) (values : Grid Value) (formats : Grid (Option String))
  | blocked (candidate : Zone)

namespace SpillState

/-- The states are equal, their values compared as values. -/
def same : SpillState → SpillState → Bool
  | .spilled zone values formats, .spilled otherZone otherValues otherFormats =>
    zone == otherZone && Value.sameRows values otherValues && formats == otherFormats
  | .blocked candidate, .blocked otherCandidate => candidate == otherCandidate
  | _, _ => false

/-- The zone that is claimed. -/
def zone? : SpillState → Option Zone
  | .spilled zone _ _ => some zone
  | .blocked _ => none

/-- The zone that could not be claimed. -/
def candidate? : SpillState → Option Zone
  | .spilled _ _ _ => none
  | .blocked candidate => some candidate

/-- The value published at a row and column of the zone. -/
def value? (row column : Nat) : SpillState → Option Value
  | .spilled _ values _ => values.at? row column
  | .blocked _ => none

/-- The format published at a row and column of the zone. -/
def format? (row column : Nat) : SpillState → Option String
  | .spilled _ _ formats => (formats.at? row column).join
  | .blocked _ => none

end SpillState

/-- What a claim meets. -/
inductive Collision where
  /-- The zone leaves the sheet below, to the right, or both. -/
  | bounds (rows columns : Bool)
  /-- A position that holds content. -/
  | content (found : Position)
  /-- A position in the zone of another anchor. -/
  | spill (found owner : Position)
deriving DecidableEq, Repr

/-- What became of the array of each anchor, and the anchor that each claimed position leads
to. -/
structure Spills where
  records : PositionMap SpillState
  owners : PositionMap Position

namespace Spills

/-- No array has been spilled. -/
def empty : Spills := ⟨∅, ∅⟩

/-- The anchor whose zone covers a position; an anchor is covered by its own zone. -/
def owner? (s : Spills) (p : Position) : Option Position := s.owners[p]?

/-- What became of the array of an anchor. -/
def state? (s : Spills) (anchor : Position) : Option SpillState := s.records[anchor]?

/-- The zone that an anchor has claimed. -/
def activeZone? (s : Spills) (anchor : Position) : Option Zone :=
  (s.state? anchor).bind SpillState.zone?

/-- What the anchor of a position publishes there. -/
def published {α : Type} (s : Spills) (pick : Nat → Nat → SpillState → Option α) (p : Position) :
    Option α := do
  let anchor ← s.owner? p
  let state ← s.state? anchor
  pick (p.row - anchor.row) (p.column - anchor.column) state

/-- The value published at a position. -/
def value? (s : Spills) (p : Position) : Option Value := s.published SpillState.value? p

/-- The format published at a position. -/
def format? (s : Spills) (p : Position) : Option String := s.published SpillState.format? p

/-- What stands in the way of a claim at one position other than its anchor. -/
def obstacle? (s : Spills) (hasContent : Position → Bool) (anchor p : Position) :
    Option Collision :=
  if p = anchor then none
  else if hasContent p then some (.content p)
  else
    match s.owner? p with
    | some owner => if owner = anchor then none else some (.spill p owner)
    | none => none

/-- The zone that an anchor can claim for an array of `rows` rows and `columns` columns, or the
first thing in its way: the borders of the sheet, then the positions row by row. -/
def checkClaim (s : Spills) (anchor : Position) (rows columns : Nat)
    (sheetRows sheetColumns : Nat) (hasContent : Position → Bool) : Except Collision Zone :=
  let zone := Zone.fromAnchor anchor rows columns
  let below := decide (sheetRows ≤ zone.bottom)
  let beside := decide (sheetColumns ≤ zone.right)
  if below || beside then .error (.bounds below beside)
  else
    match zone.positions.findSome? (s.obstacle? hasContent anchor) with
    | some collision => .error collision
    | none => .ok zone

/-- Forget the array of an anchor. Positions that lead to another anchor by now stay. -/
def release (s : Spills) (anchor : Position) : Spills where
  records := s.records.erase anchor
  owners :=
    match s.activeZone? anchor with
    | some zone =>
      zone.positions.foldl
        (fun owners p => if owners[p]? = some anchor then owners.erase p else owners) s.owners
    | none => s.owners

/-- Claim a zone for an anchor, in place of whatever it had. -/
def claim (s : Spills) (anchor : Position) (zone : Zone) (values : Grid Value)
    (formats : Grid (Option String)) : Spills :=
  let released := s.release anchor
  { records := released.records.insert anchor (.spilled zone values formats)
    owners := zone.positions.foldl (fun owners p => owners.insert p anchor) released.owners }

/-- Note that an anchor could not claim a zone, in place of whatever it had. -/
def block (s : Spills) (anchor : Position) (candidate : Zone) : Spills :=
  let released := s.release anchor
  { released with records := released.records.insert anchor (.blocked candidate) }

/-- The anchors that could not claim a zone around a position, in ascending order. -/
def blockedAround (s : Spills) (p : Position) : List Position :=
  s.records.toList.filterMap fun (anchor, state) =>
    if state.candidate?.any (·.contains p) then some anchor else none

/-- Forget every array of a sheet. -/
def clearSheet (s : Spills) (sheet : SheetId) : Spills where
  records := s.records.filter fun anchor _ => anchor.sheet != sheet
  owners := s.owners.filter fun p _ => p.sheet != sheet

/-- The number of anchors that have claimed a zone. -/
def activeCount (s : Spills) : Nat := (s.records.values.filterMap SpillState.zone?).length

end Spills

end Spreadsheet
