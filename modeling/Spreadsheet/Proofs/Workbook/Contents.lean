import Spreadsheet.Proofs.Recalculation.Dependencies
import Spreadsheet.Proofs.Recalculation.Spills
import Spreadsheet.Proofs.Workbook.Sources
import Spreadsheet.Workbook.Content

/-!
# Replacing content and formats

Replacing the content of a position changes the cell there, what its formula reads, the array of
its anchor and the marks. Everything else stays, and the marks hold what has to be evaluated.
-/
namespace Spreadsheet

namespace Content

/-- The content as it is entered: a formula gets its place in the order of entry. -/
def entered (turn : Nat) : Content → Content
  | .formula f => .formula { f with sequence := turn }
  | content => content

/-- Entering content does not change its tree. -/
@[simp] theorem expr?_entered (turn : Nat) (content : Content) :
    (content.entered turn).expr? = content.expr? := by
  cases content <;> rfl

/-- Entering content does not change whether it is a formula. -/
@[simp] theorem isSome_formula?_entered (turn : Nat) (content : Content) :
    (content.entered turn).formula?.isSome = content.formula?.isSome := by
  cases content <;> rfl

end Content

namespace Workbook

variable {w w' : Workbook} {p q : Position} {content : Content}

/-- Contents depend on the sheets only. -/
theorem content_congr (sheets : w'.sheets = w.sheets) (p : Position) :
    w'.content p = w.content p := by
  unfold content cell? sheet?
  rw [sheets]

/-- Chosen formats depend on the sheets only. -/
theorem chosen_congr (sheets : w'.sheets = w.sheets) (p : Position) : w'.chosen p = w.chosen p := by
  unfold chosen cell? sheet?
  rw [sheets]

/-- Releasing an array changes the arrays and the marks. -/
theorem releaseArray_eq (w : Workbook) (p : Position) :
    w.releaseArray p =
      { w with
        spills := w.spills.release p
        dirty := (w.releaseArray p).dirty
        changed := (w.releaseArray p).changed } := by
  unfold releaseArray
  dsimp only
  split <;> rfl

/-- What is marked dirty when an array is released. -/
theorem mem_dirty_releaseArray :
    q ∈ (w.releaseArray p).dirty ↔
      q ∈ w.dirty ∨ q ≠ p ∧ ∃ zone, w.spills.activeZone? p = some zone ∧
        ∃ u, zone.contains u = true ∧ u ≠ p ∧ q ∈ (w.spills.release p).blockedAround u := by
  unfold releaseArray
  dsimp only
  cases active : w.spills.activeZone? p with
  | none => simp
  | some zone =>
    simp only [giveUpZone, markDirty, markChanged, PositionSet.mem_insertMany, List.mem_filter,
      List.mem_flatMap, Zone.mem_positions, Option.some.injEq, bne_iff_ne]
    constructor
    · rintro (old | ⟨⟨u, ⟨inside, other⟩, blocked⟩, different⟩)
      · exact .inl old
      · exact .inr ⟨different, zone, rfl, u, inside, other, blocked⟩
    · rintro (old | ⟨different, _, rfl, u, inside, other, blocked⟩)
      · exact .inl old
      · exact .inr ⟨⟨u, ⟨inside, other⟩, blocked⟩, different⟩

/-- What is marked changed when an array is released. -/
theorem mem_changed_releaseArray :
    q ∈ (w.releaseArray p).changed ↔
      q ∈ w.changed ∨ q ≠ p ∧ ∃ zone, w.spills.activeZone? p = some zone ∧
        zone.contains q = true := by
  unfold releaseArray
  dsimp only
  cases active : w.spills.activeZone? p with
  | none => simp
  | some zone =>
    simp only [giveUpZone, markDirty, markChanged, PositionSet.mem_insertMany, List.mem_filter,
      Zone.mem_positions, Option.some.injEq, bne_iff_ne, exists_eq_left']
    rw [and_comm (a := zone.contains q = true)]

/-- Installing content changes one cell, the dependencies of its formula, the count of formulas and
the marks. -/
theorem install_eq (w : Workbook) (p : Position) (content : Content) :
    w.install p content =
      { w with
        sheets := (w.updateCell p fun c => { c with content := content.entered w.entered }).sheets
        dependencies :=
          match content.expr? with
          | some e => w.dependencies.record p (w.zonesRead e p.sheet)
          | none => w.dependencies
        entered := if content.formula?.isSome then w.entered + 1 else w.entered
        dirty := if content.formula?.isSome then w.dirty.insertMany [p] else w.dirty } := by
  cases content with
  | empty => rfl
  | literal typed value => rfl
  | formula f =>
    obtain ⟨text, tree, sequence, value, format⟩ := f
    cases tree with
    | error fault => rfl
    | ok e =>
      have sheets := SameSheets.of_updateCell { w with entered := w.entered + 1 } p fun c =>
        { c with content := .formula ⟨text, .ok e, w.entered, value, format⟩ }
      have reads : zonesRead { w with entered := w.entered + 1 } e p.sheet =
          w.zonesRead e p.sheet := rfl
      simp only [install, Formula.expr?, Except.toOption]
      rw [sheets.zonesRead, reads]
      rfl

/-- Replacing content leaves the sheets. -/
theorem sameSheets_replaceContent (w : Workbook) (p : Position) (content : Content) :
    SameSheets w (w.replaceContent p content) := by
  simp only [replaceContent]
  rw [install_eq, releaseArray_eq]
  exact ⟨rfl, rfl, rfl, rfl, extent?_updateCell w p _⟩

/-- Replacing content is a change of one cell as far as sheets go. -/
theorem sheets_replaceContent (w : Workbook) (p : Position) (content : Content) :
    (w.replaceContent p content).sheets =
      (w.updateCell p fun c => { c with content := content.entered w.entered }).sheets := by
  simp only [replaceContent]
  rw [install_eq, releaseArray_eq]
  rfl

/-- Replacing content changes the content of its position only. -/
theorem content_replaceContent (w : Workbook) (p q : Position) (content : Content) :
    (w.replaceContent p content).content q =
      if q = p ∧ (w.sheet? p.sheet).isSome then content.entered w.entered else w.content q := by
  rw [content_congr (sheets_replaceContent w p content), content_updateCell]

/-- Replacing content leaves the chosen formats. -/
theorem chosen_replaceContent (w : Workbook) (p q : Position) (content : Content) :
    (w.replaceContent p content).chosen q = w.chosen q := by
  rw [chosen_congr (sheets_replaceContent w p content), chosen_updateCell]
  split
  · rename_i here
    rw [here.1]
  · rfl

/-- Replacing content takes the array from its position. -/
theorem spills_replaceContent (w : Workbook) (p : Position) (content : Content) :
    (w.replaceContent p content).spills = w.spills.release p := by
  simp only [replaceContent]
  rw [install_eq, releaseArray_eq]
  rfl

/-- Replacing content leaves the clipboard. -/
theorem clipboard_replaceContent (w : Workbook) (p : Position) (content : Content) :
    (w.replaceContent p content).clipboard = w.clipboard := by
  simp only [replaceContent]
  rw [install_eq, releaseArray_eq]
  rfl

/-- Replacing content evaluates nothing. -/
theorem journal_replaceContent (w : Workbook) (p : Position) (content : Content) :
    (w.replaceContent p content).journal = w.journal := by
  simp only [replaceContent]
  rw [install_eq, releaseArray_eq]
  rfl

/-- Replacing content replaces what the formula of its position reads. -/
theorem dependencies_replaceContent (w : Workbook) (p : Position) (content : Content) :
    (w.replaceContent p content).dependencies =
      match content.expr? with
      | some e => (w.dependencies.remove p).record p (w.zonesRead e p.sheet)
      | none => w.dependencies.remove p := by
  simp only [replaceContent]
  rw [install_eq, releaseArray_eq]
  rfl

/-- What is marked dirty when content is replaced. -/
theorem mem_dirty_replaceContent :
    q ∈ (w.replaceContent p content).dirty ↔
      q = p ∧ content.formula?.isSome ∨
        q ≠ p ∧ (q ∈ (w.releaseArray p).dirty ∨ (w.spills.release p).owner? p = some q ∨
          q ∈ (w.spills.release p).blockedAround p) := by
  simp only [replaceContent]
  rw [install_eq]
  simp only [markDirty, markChanged, PositionSet.mem_insertMany, List.mem_filter, List.mem_append,
    Option.mem_toList, bne_iff_ne]
  have spills : (w.releaseArray p).spills = w.spills.release p := by rw [releaseArray_eq]
  rw [spills]
  by_cases here : q = p
  · subst here
    by_cases formula : content.formula?.isSome = true
    · simp [formula]
    · simp [formula]
  · by_cases formula : content.formula?.isSome = true
    · simp [here, Ne.symm here, formula]
    · simp [here, Ne.symm here, formula]

/-- What is marked changed when content is replaced. -/
theorem mem_changed_replaceContent :
    q ∈ (w.replaceContent p content).changed ↔ q ∈ (w.releaseArray p).changed ∨ q = p := by
  simp only [replaceContent]
  rw [install_eq]
  simp only [markDirty, markChanged, PositionSet.mem_insertMany, List.mem_singleton]

/-! ### Formats -/

/-- Choosing a format leaves the sheets. -/
theorem sameSheets_chooseFormat (w : Workbook) (p : Position) (format : Option String) :
    SameSheets w (w.chooseFormat p format) := by
  unfold chooseFormat
  split
  · exact .refl w
  · exact ⟨rfl, rfl, rfl, rfl, extent?_updateCell w p _⟩

/-- Choosing a format leaves the contents. -/
theorem content_chooseFormat (w : Workbook) (p q : Position) (format : Option String) :
    (w.chooseFormat p format).content q = w.content q := by
  unfold chooseFormat
  split
  · rfl
  · show (w.updateCell p _).content q = _
    rw [content_updateCell]
    split
    · rename_i here
      rw [here.1]
    · rfl

/-- Choosing a format changes the format of its position only. -/
theorem chosen_chooseFormat (w : Workbook) {p q : Position} (format : Option String)
    (other : q ≠ p) : (w.chooseFormat p format).chosen q = w.chosen q := by
  unfold chooseFormat
  split
  · rfl
  · show (w.updateCell p _).chosen q = _
    rw [chosen_updateCell, if_neg fun both => other both.1]

/-- Choosing a format leaves the arrays. -/
theorem spills_chooseFormat (w : Workbook) (p : Position) (format : Option String) :
    (w.chooseFormat p format).spills = w.spills := by
  unfold chooseFormat
  split <;> rfl

/-- Choosing a format leaves what formulas read. -/
theorem dependencies_chooseFormat (w : Workbook) (p : Position) (format : Option String) :
    (w.chooseFormat p format).dependencies = w.dependencies := by
  unfold chooseFormat
  split <;> rfl

/-- Choosing a format leaves the clipboard. -/
theorem clipboard_chooseFormat (w : Workbook) (p : Position) (format : Option String) :
    (w.chooseFormat p format).clipboard = w.clipboard := by
  unfold chooseFormat
  split <;> rfl

/-- Choosing a format marks nothing dirty. -/
theorem dirty_chooseFormat (w : Workbook) (p : Position) (format : Option String) :
    (w.chooseFormat p format).dirty = w.dirty := by
  unfold chooseFormat
  split <;> rfl

end Workbook

end Spreadsheet
