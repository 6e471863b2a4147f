import Spreadsheet.Address.Position
import Spreadsheet.Text.LetterCase

/-!
# The registry of sheets

The registry gives every sheet that is added the next number and remembers which numbers are in
use. Names are matched without regard to the case of ASCII letters. Numbers have sixteen bits.
-/
namespace Spreadsheet

/-- The number of numbers a sheet can have. -/
def sheetIdBound : Nat := 65536

/-- The names ever registered, by number, with a gap for each that was removed, and the number of
each name that is in use. -/
structure Registry where
  slots : Array (Option String)
  ids : Std.ExtTreeMap String SheetId

namespace Registry

/-- The registry without sheets. -/
def empty : Registry := ⟨#[], ∅⟩

/-- The form in which names are compared. -/
def key (name : String) : String := Text.upperAscii name

/-- The names ever registered, by number. -/
def names (r : Registry) : List (Option String) := r.slots.toList

/-- The number that the next sheet gets. -/
def nextId (r : Registry) : SheetId := r.slots.size % sheetIdBound

/-- Register a name under the next number. -/
def add (r : Registry) (name : String) : Registry :=
  let id := r.nextId
  ⟨r.slots.push (some name), r.ids.insert (key name) id⟩

/-- The name under a number. -/
def name? (r : Registry) (id : SheetId) : Option String := r.slots[id]?.join

/-- Remove the name under a number. -/
def remove (r : Registry) (id : SheetId) : Registry :=
  match r.name? id with
  | some name => ⟨r.slots.setIfInBounds id none, r.ids.erase (key name)⟩
  | none => r

/-- The number of a name. -/
def id? (r : Registry) (name : String) : Option SheetId := r.ids[key name]?

/-- The sheet a reference leads to: the one it names, or the one its formula is on. -/
def resolve (r : Registry) (qualifier : Option String) (home : SheetId) : Option SheetId :=
  match qualifier with
  | some name => r.id? name
  | none => (r.name? home).map fun _ => home

/-- The numbers in use, in the order in which they were given. -/
def liveIds (r : Registry) : List SheetId :=
  r.names.zipIdx.filterMap fun (name, index) => name.map fun _ => index % sheetIdBound

/-- The name under a number is the one registered there, if it was not removed. -/
theorem name?_eq (r : Registry) (id : SheetId) : r.name? id = r.names[id]?.join := by
  simp [name?, names]

/-- A name that is added comes last. -/
@[simp] theorem names_add (r : Registry) (name : String) :
    (r.add name).names = r.names ++ [some name] := by
  simp [add, names]

end Registry

end Spreadsheet
