import Spreadsheet.Proofs.Workbook.AlertedFormulas
import Spreadsheet.Proofs.Workbook.CircularErrors
import Spreadsheet.Proofs.Workbook.CitedRuns
import Spreadsheet.Proofs.Workbook.IdleWorkbooks
import Spreadsheet.Proofs.Workbook.MatchingFormats
import Spreadsheet.Proofs.Workbook.RepeatedRounds

/-!
# Formats of cells and the values of formulas

Choosing a format for cells lets formulas be evaluated again that read the cells, formulas that read
those, and so on. None of them shows another value after that, and no array is spilled elsewhere, unless
a formula among them did not show what it comes to, is in the way of another one's array, or is a
transposition of an argument whose format does not go with its value.
-/
namespace Spreadsheet

namespace Value

variable {v : Value} {row : List Value} {rows : Grid Value}

end Value

namespace Workbook

variable {w w' : Workbook} {p q : Position} {zones : List Zone} {format : Option String}

/-- A position of zones for which another format was chosen so far. -/
def Reformats (w : Workbook) (zones : List Zone) (format : Option String) (q : Position) : Prop :=
  (∃ z ∈ zones, z.contains q = true) ∧ w.chosen q ≠ format

/-- Choosing a format changes nothing else that is shown. -/
theorem sameShown_chooseFormat (w : Workbook) (p : Position) (format : Option String) :
    w.SameShown (w.chooseFormat p format) where
  toSameSheets := sameSheets_chooseFormat w p format
  dependencies := dependencies_chooseFormat w p format
  content q := by rw [content_chooseFormat]
  arrays := by
    rw [spills_chooseFormat]
    exact .refl _

/-- A position has the format that was chosen for it or the one it had. -/
theorem chosen_chooseFormat_or (w : Workbook) (p q : Position) (format : Option String) :
    (w.chooseFormat p format).chosen q = w.chosen q ∨
      (w.chooseFormat p format).chosen q = format := by
  unfold chooseFormat
  split
  · exact .inl rfl
  · show (w.updateCell p _).chosen q = _ ∨ (w.updateCell p _).chosen q = _
    rw [chosen_updateCell]
    split
    · exact .inr rfl
    · exact .inl rfl

/-- What is true while formats are chosen: nothing but formats has changed, and what has been marked
changed had another format. -/
structure Formatting (w : Workbook) (positions : List Position) (format : Option String)
    (w' : Workbook) : Prop where
  shown : w.SameShown w'
  dirty : w'.dirty = w.dirty
  chosen : ∀ q, w'.chosen q = w.chosen q ∨ w'.chosen q = format
  changed : ∀ q ∈ w'.changed, q ∈ w.changed ∨ q ∈ positions ∧ w.chosen q ≠ format

/-- A format is chosen for one more position. -/
theorem Formatting.chooseFormat {positions : List Position}
    (formatting : w.Formatting positions format w') (listed : p ∈ positions) :
    w.Formatting positions format (w'.chooseFormat p format) where
  shown := formatting.shown.trans (sameShown_chooseFormat w' p format)
  dirty := (dirty_chooseFormat w' p format).trans formatting.dirty
  chosen q := by
    have before := formatting.chosen q
    rcases chosen_chooseFormat_or w' p q format with kept | fresh
    · rwa [kept]
    · exact .inr fresh
  changed q marked := by
    by_cases same : w'.chosen p = format
    · rw [show w'.chooseFormat p format = w' from if_pos same] at marked
      exact formatting.changed q marked
    · rcases (mem_changed_chooseFormat same).mp marked with before | rfl
      · exact formatting.changed q before
      · have old : w'.chosen q = w.chosen q := (formatting.chosen q).resolve_right same
        rw [old] at same
        exact .inr ⟨listed, same⟩

/-- Formats have been chosen for positions. -/
theorem formatting_formatted (w : Workbook) (positions : List Position) (format : Option String) :
    w.Formatting positions format (w.formatted positions format) :=
  formatted_induction (P := w.Formatting positions format)
    ⟨.refl w, rfl, fun _ => .inl rfl, fun _ marked => .inl marked⟩
    fun _ _ listed before => before.chooseFormat listed

end Workbook

end Spreadsheet
