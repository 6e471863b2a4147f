import Spreadsheet.Proofs.Reference.Texts

/-!
# Normal forms of references

A reference that has been read is written in its normal form. Rows and columns are ordered independently
of each other, so that a corner of the normal form may join a row and a column that were typed at different
corners. The normal form reads back exactly if each corner that gives both of them lies on the grid.
-/
namespace Spreadsheet

namespace Column

variable {column : Nat}

/-- A capital letter is one of twenty-six. -/
theorem letterIndex_lt {c : Char} (capital : c.isUpper = true) : letterIndex c < 26 := by
  have bounds := Text.isUpper_iff.mp capital
  have first : 'A'.toNat = 65 := rfl
  unfold letterIndex
  omega

/-- Up to three letters name no column behind the last of three letters. -/
theorem le_lastOfThree {letters : List Char} (short : letters.length ≤ 3)
    (found : ofLetters? letters = some column) : column ≤ lastOfThree := by
  rw [ofLetters?_eq] at found
  split at found
  · contradiction
  · rename_i typed
    split at found
    · obtain rfl := Option.some.inj found
      have capitals : ∀ c ∈ letters, letterIndex c < 26 := fun c listed => by
        have capital : ¬letters = [] ∧ ∀ c ∈ letters, c.isUpper = true := by simpa using typed
        exact letterIndex_lt (capital.2 c listed)
      show numeral letters - 1 ≤ 18277
      match letters, short with
      | [], _ => exact Nat.zero_le _
      | [a], _ =>
        simp only [List.forall_mem_cons, numeral, continued, List.foldl_cons, List.foldl_nil] at capitals ⊢
        omega
      | [a, b], _ =>
        simp only [List.forall_mem_cons, numeral, continued, List.foldl_cons, List.foldl_nil] at capitals ⊢
        omega
      | [a, b, c], _ =>
        simp only [List.forall_mem_cons, numeral, continued, List.foldl_cons, List.foldl_nil] at capitals ⊢
        omega
    · contradiction

end Column

namespace Corner

variable {c : Corner} {text : List Char}

/-- The row of a corner is within the numbering, and its column has at most three letters. -/
structure Numbered (c : Corner) : Prop where
  row : ∀ a ∈ c.row, a.index + 1 < indexBound
  column : ∀ b ∈ c.column, b.index ≤ Column.lastOfThree

/-- A corner that gives both a row and a column lies on the grid. -/
def OnGrid (c : Corner) : Prop := ∀ a ∈ c.row, ∀ b ∈ c.column, a.index ≤ lastRow ∧ b.index ≤ lastColumn

/-- A numbered corner can be named exactly if it lies on the grid where it gives both a row and a column. -/
theorem Numbered.nameable_iff (numbered : c.Numbered) : c.Nameable ↔ c.OnGrid :=
  ⟨Nameable.cell, fun onGrid => ⟨numbered.row, numbered.column, onGrid⟩⟩

/-- A corner that is read is numbered. -/
theorem numbered_read (found : read text = .ok c) : c.Numbered := by
  unfold read at found
  split at found
  · rename_i coordinate _
    obtain rfl := Except.ok.inj found
    have row := coordinate.row_le
    have column := coordinate.column_le
    refine ⟨?_, ?_⟩
    · rintro _ ⟨⟩
      exact Nat.lt_of_le_of_lt (Nat.succ_le_succ row) (by decide)
    · rintro _ ⟨⟩
      exact Nat.le_trans column (by decide)
  · dsimp only at found
    split at found
    · rename_i corner typed
      obtain rfl := Except.ok.inj found
      split at typed
      · contradiction
      · split at typed
        · split at typed
          · contradiction
          · rename_i short
            obtain ⟨column, letters, rfl⟩ := Option.map_eq_some_iff.mp typed
            refine ⟨nofun, ?_⟩
            rintro _ ⟨⟩
            exact Column.le_lastOfThree (by simpa using short) letters
        · split at typed
          · split at typed
            · split at typed
              · rename_i below
                obtain rfl := Option.some.inj typed
                refine ⟨?_, nofun⟩
                rintro _ ⟨⟩
                exact below
              · contradiction
            · contradiction
          · contradiction
    · contradiction

/-- A corner outside of the grid is written, but not read. -/
theorem read_chars_of_not_onGrid (numbered : c.Numbered) (outside : ¬c.OnGrid) :
    read c.chars = .error (.corner (String.ofList c.chars)) := by
  obtain ⟨row, column⟩ := c
  simp only [OnGrid, not_forall] at outside
  obtain ⟨⟨row, rowFixed⟩, rfl, ⟨column, fixed⟩, rfl, outside⟩ := outside
  have short : column ≤ Column.lastOfThree := numbered.column _ rfl
  obtain ⟨_, digits, _⟩ := Coordinate.digits_spec (row + 1)
  obtain ⟨letter, letters, lettered⟩ := List.exists_cons_of_ne_nil (Column.letters_ne_nil column)
  obtain ⟨digit, others, numbered⟩ := List.exists_cons_of_ne_nil (Coordinate.digits_spec (row + 1)).1
  -- What stands behind the dollar sign of the column has both a letter and a digit.
  generalize body : Column.letters column ++ (Coordinate.dollar rowFixed ++ Nat.toDigits 10 (row + 1)) = rest
  have capital : letter ∈ rest ∧ letter.isDigit = false := by
    refine ⟨body ▸ List.mem_append_left _ (lettered ▸ List.mem_cons_self), ?_⟩
    have upper := Column.isUpper_of_mem_letters (lettered ▸ List.mem_cons_self : letter ∈ Column.letters column)
    refine Bool.eq_false_iff.mpr fun number => ?_
    have other := Text.isAlpha_of_isDigit number
    rw [Text.isAlpha_eq, upper] at other
    contradiction
  have number : digit ∈ rest ∧ digit.isAlpha = false := by
    have listed : digit ∈ Nat.toDigits 10 (row + 1) := numbered ▸ List.mem_cons_self
    exact ⟨body ▸ List.mem_append_right _ (List.mem_append_right _ listed),
      Text.isAlpha_of_isDigit (digits digit listed)⟩
  have written : chars ⟨some ⟨row, rowFixed⟩, some ⟨column, fixed⟩⟩ = Coordinate.dollar fixed ++ rest := by
    rw [← body, ← List.append_assoc]
    rfl
  have none' : Coordinate.read? (Coordinate.dollar fixed ++ rest) = none := by
    rw [← body, ← List.append_assoc, ← List.append_assoc, Coordinate.read?_written short]
    unfold Coordinate.make
    split
    · rename_i onGrid
      rw [dif_neg fun onGrid' => outside ⟨onGrid, onGrid'⟩]
      rfl
    · rfl
  have start : rest.head? ≠ some '$' := body ▸ Coordinate.head?_letters column _
  have filled : rest.isEmpty = false := by simpa using List.ne_nil_of_mem capital.1
  have alpha : rest.all Char.isAlpha = false := List.all_eq_false.mpr ⟨digit, number.1, by simp [number.2]⟩
  have digit' : rest.all Char.isDigit = false := List.all_eq_false.mpr ⟨letter, capital.1, by simp [capital.2]⟩
  rw [written, read, none']
  simp only [Coordinate.takeDollar_dollar fixed start, filled, alpha, digit', Bool.false_eq_true, if_false]

end Corner

/-- What has been put in order was there before. -/
theorem mem_of_mem_orderAxes {first second : Option Axis} {a : Axis}
    (listed : a ∈ (orderAxes first second).1 ∨ a ∈ (orderAxes first second).2) : a ∈ first ∨ a ∈ second := by
  unfold orderAxes at listed
  split at listed
  · split at listed
    · exact listed.symm
    · exact listed
  · exact listed

namespace Reference

variable {target : Reference} {text : List Char}

/-- The corners of a range are numbered. -/
def CornersNumbered : Reference → Prop
  | .cell _ _ => True
  | .range _ start stop => start.Numbered ∧ stop.Numbered

/-- The corners of a range that give both a row and a column lie on the grid. -/
def CornersOnGrid : Reference → Prop
  | .cell _ _ => True
  | .range _ start stop => start.OnGrid ∧ stop.OnGrid

/-- The range between two numbered corners has such corners. -/
theorem cornersNumbered_between (sheet : Option String) {corner other : Corner} (first : corner.Numbered)
    (last : other.Numbered) : (between sheet corner other).CornersNumbered := by
  have row : ∀ {a}, a ∈ corner.row ∨ a ∈ other.row → a.index + 1 < indexBound :=
    fun given => given.elim (first.row _) (last.row _)
  have column : ∀ {b}, b ∈ corner.column ∨ b ∈ other.column → b.index ≤ Column.lastOfThree :=
    fun given => given.elim (first.column _) (last.column _)
  exact ⟨⟨fun _ given => row (mem_of_mem_orderAxes (.inl given)),
      fun _ given => column (mem_of_mem_orderAxes (.inl given))⟩,
    fun _ given => row (mem_of_mem_orderAxes (.inr given)),
      fun _ given => column (mem_of_mem_orderAxes (.inr given))⟩

/-- The corners of a range that is read are numbered. -/
theorem cornersNumbered_read (found : read text = .ok target) : target.CornersNumbered := by
  unfold read at found
  dsimp only at found
  split at found
  · unfold readRange at found
    obtain ⟨start, first, rest⟩ := exists_of_bind_eq_ok found
    obtain ⟨stop, last, rest⟩ := exists_of_bind_eq_ok rest
    split at rest
    · contradiction
    · obtain rfl := Except.ok.inj rest
      exact cornersNumbered_between _ (Corner.numbered_read first) (Corner.numbered_read last)
  · split at found
    · obtain rfl := Except.ok.inj found
      trivial
    · contradiction

/-- The corners of a range that are numbered can be named exactly if they lie on the grid. -/
theorem cornersNameable_iff (numbered : target.CornersNumbered) :
    target.CornersNameable ↔ target.CornersOnGrid := by
  cases target with
  | cell sheet c => exact Iff.rfl
  | range sheet start stop => exact and_congr numbered.1.nameable_iff numbered.2.nameable_iff

/-- A range with a corner outside of the grid is written, but not read. -/
theorem read_chars_of_not_cornersOnGrid (numbered : target.CornersNumbered) (filled : target.Filled)
    (outside : ¬target.CornersOnGrid) :
    ∃ corner, read target.chars = .error (.corner (String.ofList corner)) := by
  cases target with
  | cell sheet c => exact absurd trivial outside
  | range sheet start stop =>
    rw [read_range_chars, readRange_append]
    by_cases onGrid : start.OnGrid
    · have outside' : ¬stop.OnGrid := fun onGrid' => outside ⟨onGrid, onGrid'⟩
      refine ⟨stop.chars, ?_⟩
      rw [Corner.read_chars filled.1 (numbered.1.nameable_iff.mpr onGrid),
        Corner.read_chars_of_not_onGrid numbered.2 outside']
      rfl
    · refine ⟨start.chars, ?_⟩
      rw [Corner.read_chars_of_not_onGrid numbered.1 onGrid]
      rfl

/-- A reference that has been read reads back from its normal form exactly if its corners that give both a
row and a column lie on the grid. Otherwise the normal form is no reference. -/
theorem read_chars_iff_of_read (found : read text = .ok target) :
    (read target.chars = .ok target ↔ target.CornersOnGrid) ∧
      (¬target.CornersOnGrid → ∃ corner, read target.chars = .error (.corner (String.ofList corner))) := by
  have numbered := cornersNumbered_read found
  have refused := read_chars_of_not_cornersOnGrid numbered (filled_read found)
  refine ⟨⟨fun back => ?_, fun onGrid => ?_⟩, refused⟩
  · by_contra outside
    obtain ⟨corner, fails⟩ := refused outside
    rw [back] at fails
    contradiction
  · exact read_chars_of_normal
      ⟨(cornersNameable_iff numbered).mpr onGrid, filled_read found, ordered_read found⟩

/-- A row beyond the grid is typed alone, and the normal form `1:A2000000` joins it with a column. -/
theorem not_read_chars_of_row_beyond_grid :
    ∃ target, read "2000000:A1".toList = .ok target ∧ target.chars = "1:A2000000".toList ∧
      read target.chars ≠ .ok target ∧
        ∃ corner, read target.chars = .error (.corner (String.ofList corner)) := by
  have typed : read "2000000:A1".toList =
      .ok (.range none ⟨some ⟨0, false⟩, none⟩ ⟨some ⟨1999999, false⟩, some ⟨0, false⟩⟩) := by
    decide +kernel
  obtain ⟨back, refused⟩ := read_chars_iff_of_read typed
  have outside : ¬CornersOnGrid (.range none ⟨some ⟨0, false⟩, none⟩
      ⟨some ⟨1999999, false⟩, some ⟨0, false⟩⟩) := fun ⟨_, onGrid⟩ =>
    absurd (onGrid _ rfl _ rfl).1 (by decide)
  exact ⟨_, typed, by decide +kernel, fun same => outside (back.mp same), refused outside⟩

end Reference

end Spreadsheet
