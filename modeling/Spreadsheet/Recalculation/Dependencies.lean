import Spreadsheet.Address.Zone

/-!
# Dependencies

For every formula the zones it reads are kept in ascending order. Two indexes answer which
formulas read a position: one from single positions, and one that lists the larger zones of each
sheet.
-/
namespace Spreadsheet

/-- The zones that formulas read, and the two indexes of them. -/
structure Dependencies where
  precedents : PositionMap (List Zone)
  cellReaders : PositionMap PositionSet
  rangeReaders : Std.ExtTreeMap SheetId (List (Zone × Position))

namespace Dependencies

/-- No formula reads anything. -/
def empty : Dependencies := ⟨∅, ∅, ∅⟩

/-- The zones a formula reads. -/
def zonesOf (d : Dependencies) (reader : Position) : List Zone :=
  (d.precedents[reader]?).getD []

/-- Enter one zone of a formula in its index. -/
def index (d : Dependencies) (reader : Position) (zone : Zone) : Dependencies :=
  if zone.isSingle then
    let readers := (d.cellReaders[zone.topLeft]?).getD ∅
    { d with cellReaders := d.cellReaders.insert zone.topLeft (readers.insert reader) }
  else
    let readers := (d.rangeReaders[zone.sheet]?).getD []
    { d with rangeReaders := d.rangeReaders.insert zone.sheet (readers ++ [(zone, reader)]) }

/-- Take one zone of a formula out of its index. -/
def unindex (d : Dependencies) (reader : Position) (zone : Zone) : Dependencies :=
  if zone.isSingle then
    let readers := ((d.cellReaders[zone.topLeft]?).getD ∅).erase reader
    { d with
      cellReaders :=
        if readers.isEmpty then d.cellReaders.erase zone.topLeft
        else d.cellReaders.insert zone.topLeft readers }
  else
    let readers := ((d.rangeReaders[zone.sheet]?).getD []).filter fun entry =>
      entry != (zone, reader)
    { d with
      rangeReaders :=
        if readers.isEmpty then d.rangeReaders.erase zone.sheet
        else d.rangeReaders.insert zone.sheet readers }

/-- Forget what a formula reads. -/
def remove (d : Dependencies) (reader : Position) : Dependencies :=
  let cleared := (d.zonesOf reader).foldl (fun d zone => d.unindex reader zone) d
  { cleared with precedents := d.precedents.erase reader }

/-- Replace what a formula reads by the given zones, in any order and with repetitions. -/
def record (d : Dependencies) (reader : Position) (zones : List Zone) : Dependencies :=
  let sorted := sortedZones zones
  let indexed := sorted.foldl (fun d zone => d.index reader zone) (d.remove reader)
  if sorted.isEmpty then indexed
  else { indexed with precedents := indexed.precedents.insert reader sorted }

/-- The formulas that read a position, on its own or within a larger zone, in ascending order. -/
def readersOf (d : Dependencies) (p : Position) : List Position :=
  let single := ((d.cellReaders[p]?).getD ∅).toList
  let ranged := ((d.rangeReaders[p.sheet]?).getD []).filterMap fun (zone, reader) =>
    if zone.contains p then some reader else none
  sortedPositions (single ++ ranged)

end Dependencies

end Spreadsheet
