import Spreadsheet.Proofs.Decimal.Texts
import Spreadsheet.Reference.Text

/-!
# Texts of columns, rows and corners

The letters of a column and the number of a row read back, with or without a dollar sign in front.
-/
namespace Spreadsheet

namespace Column

variable {column : Nat}

/-- The numeral that capital letters write behind one that is written already. -/
def continued (value : Nat) (letters : List Char) : Nat :=
  letters.foldl (fun value c => 26 * value + (letterIndex c + 1)) value

/-- The numeral that capital letters write, one more than the column they name. -/
def numeral (letters : List Char) : Nat := continued 0 letters

/-- A numeral gets no less by more letters. -/
theorem le_continued (value : Nat) (letters : List Char) : value ≤ continued value letters := by
  induction letters generalizing value with
  | nil => exact Nat.le_refl _
  | cons c rest ih =>
    calc
      value ≤ 26 * value + (letterIndex c + 1) := by omega
      _ ≤ continued value (c :: rest) := ih _

/-- A numeral gets greater by more letters. -/
theorem lt_continued (value : Nat) (c : Char) (rest : List Char) :
    value < continued value (c :: rest) := by
  have more := le_continued (26 * value + (letterIndex c + 1)) rest
  change value < continued (26 * value + (letterIndex c + 1)) rest
  omega

/-- One letter more is read unless it is no capital or the column it stands for is not below the
bound. -/
theorem readLetters?_cons (value : Nat) (c : Char) (rest : List Char) :
    readLetters? value (c :: rest) =
      if c.isUpper = true ∧ value * 26 + letterIndex c < indexBound then
        if rest = [] then some (value * 26 + letterIndex c)
        else if value * 26 + letterIndex c + 1 < indexBound then
          readLetters? (value * 26 + letterIndex c + 1) rest
        else none
      else none := by
  rw [readLetters?]
  by_cases capital : c.isUpper = true
  · by_cases below : value * 26 + letterIndex c < indexBound
    · have shifted : value * 26 < indexBound := by omega
      cases rest with
      | nil => simp [capital, bounded?, below, shifted, readLetters?]
      | cons d rest =>
        by_cases further : value * 26 + letterIndex c + 1 < indexBound
        · simp [capital, bounded?, below, shifted, further]
        · simp [capital, bounded?, below, shifted, further]
    · by_cases shifted : value * 26 < indexBound
      · simp [capital, bounded?, below, shifted]
      · simp [capital, bounded?, below, shifted]
  · simp [capital]

/-- Reading on from a number is refused exactly if a letter is no capital or the numeral exceeds the
bound: no number on the way is greater than the last. -/
theorem readLetters?_eq (value : Nat) {letters : List Char} (some' : letters ≠ []) :
    readLetters? value letters =
      if letters.all Char.isUpper = true ∧ continued value letters ≤ indexBound then
        some (continued value letters - 1)
      else none := by
  induction letters generalizing value with
  | nil => contradiction
  | cons c rest ih =>
    have next : 26 * value + (letterIndex c + 1) = value * 26 + letterIndex c + 1 := by omega
    have number : continued value (c :: rest) =
        continued (value * 26 + letterIndex c + 1) rest := by
      rw [continued, List.foldl_cons, next]
      rfl
    rw [readLetters?_cons, number, List.all_cons]
    by_cases capital : c.isUpper = true
    · simp only [capital, true_and, Bool.true_and]
      cases rest with
      | nil =>
        simp only [if_true, List.all_nil, true_and]
        rfl
      | cons d rest =>
        have further := lt_continued (value * 26 + letterIndex c + 1) d rest
        rw [if_neg (List.cons_ne_nil d rest), ih _ (List.cons_ne_nil d rest)]
        by_cases below : value * 26 + letterIndex c + 1 < indexBound
        · rw [if_pos (Nat.lt_of_succ_lt below), if_pos below]
        · have beyond : ¬ continued (value * 26 + letterIndex c + 1) (d :: rest) ≤ indexBound := by
            omega
          simp only [below, beyond, and_false, if_false, ite_self]
    · simp [capital]

/-- What letters name is one less than the numeral they write. -/
theorem ofLetters?_eq (letters : List Char) :
    ofLetters? letters =
      if letters.isEmpty || !letters.all Char.isUpper then none
      else if numeral letters ≤ indexBound then some (numeral letters - 1)
      else none := by
  rw [ofLetters?]
  cases letters with
  | nil => rfl
  | cons c rest =>
    rw [List.isEmpty_cons, readLetters?_eq 0 (List.cons_ne_nil c rest), numeral]
    cases (c :: rest).all Char.isUpper with
    | false => simp
    | true => simp

/-- The letters of a column are letters of numerals one digit longer than those it begins with. -/
theorem letters_of_le (large : 26 ≤ column) :
    letters column = letters (column / 26 - 1) ++ [letter (column % 26)] := by
  rw [letters, if_neg (Nat.not_lt.mpr large)]

/-- One of the first columns has one letter. -/
theorem letters_of_lt (small : column < 26) : letters column = [letter column] := by
  rw [letters, if_pos small]

/-- A digit has a capital letter that tells it. -/
theorem letter_spec {digit : Nat} (small : digit < 26) :
    (letter digit).isUpper = true ∧ letterIndex (letter digit) = digit := by
  have all : ∀ d : Fin 26, (letter d).isUpper = true ∧ letterIndex (letter d) = d := by decide
  exact all ⟨digit, small⟩

/-- A column has a letter. -/
theorem letters_ne_nil (column : Nat) : letters column ≠ [] := by
  by_cases small : column < 26
  · rw [letters_of_lt small]
    exact List.cons_ne_nil _ _
  · rw [letters_of_le (Nat.le_of_not_lt small)]
    exact List.append_ne_nil_of_right_ne_nil _ (List.cons_ne_nil _ _)

/-- The letters of a column are capitals. -/
theorem isUpper_of_mem_letters {c : Char} (listed : c ∈ letters column) : c.isUpper = true := by
  induction column using letters.induct with
  | case1 column small =>
    rw [letters_of_lt small, List.mem_singleton] at listed
    rw [listed]
    exact (letter_spec small).1
  | case2 column large ih =>
    rw [letters_of_le (Nat.le_of_not_lt large), List.mem_append, List.mem_singleton] at listed
    rcases listed with front | rfl
    · exact ih front
    · exact (letter_spec (Nat.mod_lt column (by decide))).1

/-- The letters of a column are the numeral of its number, counted from one. -/
theorem numeral_letters (column : Nat) : numeral (letters column) = column + 1 := by
  induction column using letters.induct with
  | case1 column small =>
    rw [letters_of_lt small, numeral, continued, List.foldl_cons, List.foldl_nil, (letter_spec small).2]
    omega
  | case2 column large ih =>
    have last := (letter_spec (Nat.mod_lt column (show 0 < 26 by decide))).2
    unfold numeral continued at ih ⊢
    rw [letters_of_le (Nat.le_of_not_lt large), List.foldl_append, ih, List.foldl_cons,
      List.foldl_nil, last]
    omega

/-- The letters of a column name it. -/
theorem ofLetters?_letters (below : column < indexBound) : ofLetters? (letters column) = some column := by
  have capitals : (letters column).all Char.isUpper = true :=
    List.all_eq_true.mpr fun c listed => isUpper_of_mem_letters listed
  have some' : (letters column).isEmpty = false := by simpa using letters_ne_nil column
  rw [ofLetters?_eq, some', capitals, numeral_letters]
  exact if_pos below

/-- The last column that three letters name. It lies behind the grid. -/
def lastOfThree : Nat := 18277

/-- A column up to there has at most three letters. -/
theorem length_letters_le (inside : column ≤ lastOfThree) : (letters column).length ≤ 3 := by
  have atMost : column ≤ 18277 := inside
  by_cases one : column < 26
  · rw [letters_of_lt one]
    exact Nat.le_add_left 1 2
  · by_cases two : column / 26 - 1 < 26
    · rw [letters_of_le (Nat.le_of_not_lt one), letters_of_lt two]
      exact Nat.le_succ 2
    · have three : (column / 26 - 1) / 26 - 1 < 26 := by omega
      rw [letters_of_le (Nat.le_of_not_lt one), letters_of_le (Nat.le_of_not_lt two),
        letters_of_lt three]
      exact Nat.le_refl 3

end Column

/-- The letters of a column are their own capitals. -/
theorem Column.map_toUpper_letters (column : Nat) : (letters column).map Char.toUpper = letters column :=
  (List.map_congr_left fun _ listed => Text.toUpper_of_isUpper (isUpper_of_mem_letters listed)).trans
    (List.map_id _)

namespace Coordinate

/-- A dollar sign is read back. -/
theorem takeDollar_dollar (fixed : Bool) {body : List Char} (plain : body.head? ≠ some '$') :
    takeDollar (dollar fixed ++ body) = (fixed, body) := by
  cases fixed with
  | true => rfl
  | false =>
    cases body with
    | nil => rfl
    | cons c rest =>
      have other : c ≠ '$' := fun same => plain (congrArg some same)
      show takeDollar (c :: rest) = _
      unfold takeDollar
      split
      · rename_i same
        exact absurd (List.cons.inj same).1 other
      · rfl

/-- The digits of a row are digits and do not start with a dollar sign. -/
theorem digits_spec (n : Nat) : Nat.toDigits 10 n ≠ [] ∧
    (∀ c ∈ Nat.toDigits 10 n, c.isDigit = true) ∧ (Nat.toDigits 10 n).head? ≠ some '$' := by
  have digits : ∀ c ∈ Nat.toDigits 10 n, c.isDigit = true := fun c =>
    Nat.isDigit_of_mem_toDigits (show 0 < 10 by decide) (by decide)
  refine ⟨Nat.toDigits_ne_nil, digits, fun first => ?_⟩
  exact absurd (digits '$' (List.mem_of_mem_head? first)) (by decide)

/-- What starts with the letters of a column does not start with a dollar sign. -/
theorem head?_letters (column : Nat) (rest : List Char) :
    (Column.letters column ++ rest).head? ≠ some '$' := by
  intro first
  obtain ⟨c, tail, letters⟩ := List.exists_cons_of_ne_nil (Column.letters_ne_nil column)
  have capital := Column.isUpper_of_mem_letters (letters ▸ List.mem_cons_self : c ∈ _)
  rw [letters] at first
  obtain rfl := Option.some.inj first
  contradiction

/-- Letters in front of what does not start with one are split off. -/
theorem split_letters (column : Nat) (rest : List Char) (apart : ∀ c ∈ rest.head?, c.isAlpha = false) :
    (Column.letters column ++ rest).takeWhile Char.isAlpha = Column.letters column ∧
      (Column.letters column ++ rest).dropWhile Char.isAlpha = rest := by
  have letters : ∀ c ∈ Column.letters column, c.isAlpha = true := fun c listed => by
    rw [Text.isAlpha_eq, Column.isUpper_of_mem_letters listed, Bool.true_or]
  exact Text.span_append letters rest apart

/-- A row and a column that are written are read as the coordinate at them, if there is one. -/
theorem read?_written {row column : Nat} (short : column ≤ Column.lastOfThree) (rowFixed columnFixed : Bool) :
    read? (dollar columnFixed ++ Column.letters column ++ dollar rowFixed ++ Nat.toDigits 10 (row + 1)) =
      (make row column rowFixed columnFixed).toOption := by
  obtain ⟨some', digits, plain⟩ := digits_spec (row + 1)
  have below : column < indexBound := Nat.lt_of_le_of_lt short (by decide)
  have tail : ∀ c ∈ (dollar rowFixed ++ Nat.toDigits 10 (row + 1)).head?, c.isAlpha = false := by
    intro c shown
    cases rowFixed with
    | true =>
      obtain rfl := Option.some.inj shown
      rfl
    | false => exact Text.isAlpha_of_isDigit (digits c (List.mem_of_mem_head? shown))
  have start : (Column.letters column ++ (dollar rowFixed ++ Nat.toDigits 10 (row + 1))).head? ≠
      some '$' := head?_letters column _
  obtain ⟨taken, dropped⟩ := split_letters column _ tail
  have capitals := Column.map_toUpper_letters column
  unfold read?
  simp only [List.append_assoc, takeDollar_dollar columnFixed start, taken, dropped,
    takeDollar_dollar rowFixed plain, capitals, Column.ofLetters?_letters below,
    Decimal.ofDigits_toDigits]
  have named : (Column.letters column).isEmpty = false := by simpa using Column.letters_ne_nil column
  have fits : ¬3 < (Column.letters column).length := Nat.not_lt.mpr (Column.length_letters_le short)
  have numbered : (Nat.toDigits 10 (row + 1)).isEmpty = false := by simp
  have all : (Nat.toDigits 10 (row + 1)).all Char.isDigit = true := List.all_eq_true.mpr digits
  simp [named, fits, numbered, all]

/-- A coordinate is read as it is written. -/
theorem read?_chars (c : Coordinate) : read? c.chars = some c := by
  obtain ⟨row, column, rowFixed, columnFixed, row_le, column_le⟩ := c
  have short : column ≤ Column.lastOfThree := Nat.le_trans column_le (by decide)
  refine (read?_written short rowFixed columnFixed).trans ?_
  rw [make, dif_pos row_le, dif_pos column_le]
  rfl

end Coordinate

/-- The name of a position tells its row and column. -/
theorem Position.eq_of_name {p q : Position} (sheets : p.sheet = q.sheet)
    (names : p.name = q.name) : p = q := by
  have chars := String.ofList_injective names
  have apart : ∀ row, ∀ c ∈ (Nat.toDigits 10 row).head?, c.isAlpha = false := fun row c first =>
    Text.isAlpha_of_isDigit ((Coordinate.digits_spec row).2.1 c (List.mem_of_mem_head? first))
  obtain ⟨letters, digits⟩ := Coordinate.split_letters p.column _ (apart (p.row + 1))
  obtain ⟨letters', digits'⟩ := Coordinate.split_letters q.column _ (apart (q.row + 1))
  rw [chars] at letters digits
  have columns := congrArg Column.numeral (letters.symm.trans letters')
  have rows := congrArg Decimal.ofDigits (digits.symm.trans digits')
  rw [Column.numeral_letters, Column.numeral_letters] at columns
  rw [Decimal.ofDigits_toDigits, Decimal.ofDigits_toDigits] at rows
  obtain ⟨sheet, row, column⟩ := p
  obtain ⟨sheet', row', column'⟩ := q
  rw [Position.mk.injEq]
  exact ⟨sheets, Nat.succ.inj rows, Nat.succ.inj columns⟩

namespace Corner

/-- A corner of a range gives a row or a column, and what it gives lies on the grid. -/
structure Writable (c : Corner) : Prop where
  given : c.isBare = false
  row : ∀ a ∈ c.row, a.index ≤ lastRow
  column : ∀ a ∈ c.column, a.index ≤ lastColumn

/-- What a corner gives can be named: a cell on the grid, a row within the numbering, or a column of
at most three letters. -/
structure Nameable (c : Corner) : Prop where
  row : ∀ a ∈ c.row, a.index + 1 < indexBound
  column : ∀ b ∈ c.column, b.index ≤ Column.lastOfThree
  cell : ∀ a ∈ c.row, ∀ b ∈ c.column, a.index ≤ lastRow ∧ b.index ≤ lastColumn

instance (c : Corner) : Decidable c.Nameable :=
  decidable_of_iff ((∀ a ∈ c.row, a.index + 1 < indexBound) ∧
    (∀ b ∈ c.column, b.index ≤ Column.lastOfThree) ∧
      ∀ a ∈ c.row, ∀ b ∈ c.column, a.index ≤ lastRow ∧ b.index ≤ lastColumn)
    ⟨fun ⟨row, column, cell⟩ => ⟨row, column, cell⟩, fun ⟨row, column, cell⟩ => ⟨row, column, cell⟩⟩

/-- What lies on the grid can be named. -/
theorem Writable.nameable {c : Corner} (writable : c.Writable) : c.Nameable where
  row a given := Nat.lt_of_le_of_lt (Nat.succ_le_succ (writable.row a given)) (by decide)
  column b given := Nat.le_trans (writable.column b given) (by decide)
  cell a row b column := ⟨writable.row a row, writable.column b column⟩

/-- The letters of a column are no coordinate. -/
theorem read?_letters (fixed : Bool) (column : Nat) :
    Coordinate.read? (Coordinate.dollar fixed ++ Column.letters column) = none := by
  have start := Coordinate.head?_letters column []
  obtain ⟨taken, dropped⟩ := Coordinate.split_letters column [] fun _ none => by contradiction
  rw [List.append_nil] at start taken dropped
  have nothing : Coordinate.takeDollar [] = (false, []) := rfl
  unfold Coordinate.read?
  simp only [Coordinate.takeDollar_dollar fixed start, taken, dropped, nothing, List.isEmpty_nil,
    Bool.or_true, Bool.true_or, if_true]

/-- The number of a row is no coordinate. -/
theorem read?_digits (fixed : Bool) (n : Nat) :
    Coordinate.read? (Coordinate.dollar fixed ++ Nat.toDigits 10 n) = none := by
  obtain ⟨some', digits, plain⟩ := Coordinate.digits_spec n
  obtain ⟨c, tail, shown⟩ := List.exists_cons_of_ne_nil some'
  have digit : c.isAlpha = false := Text.isAlpha_of_isDigit (digits c (shown ▸ List.mem_cons_self))
  have none' : (Nat.toDigits 10 n).takeWhile Char.isAlpha = [] := by
    rw [shown, List.takeWhile_cons_of_neg (by simp [digit])]
  unfold Coordinate.read?
  simp only [Coordinate.takeDollar_dollar fixed plain, none', List.isEmpty_nil, Bool.true_or, if_true]

/-- A corner is read as it is written. -/
theorem read_chars {c : Corner} (given : c.isBare = false) (nameable : c.Nameable) :
    read c.chars = .ok c := by
  obtain ⟨row, column⟩ := c
  cases column with
  | none =>
    cases row with
    | none => exact absurd given (by decide)
    | some b =>
      obtain ⟨row, fixed⟩ := b
      have below : row + 1 < indexBound := nameable.row _ rfl
      obtain ⟨some', digits, plain⟩ := Coordinate.digits_spec (row + 1)
      obtain ⟨c, tail, shown⟩ := List.exists_cons_of_ne_nil some'
      have digit : c.isAlpha = false := Text.isAlpha_of_isDigit (digits c (shown ▸ List.mem_cons_self))
      have numbered : (Nat.toDigits 10 (row + 1)).isEmpty = false := by simp
      have all : (Nat.toDigits 10 (row + 1)).all Char.isDigit = true := List.all_eq_true.mpr digits
      have letters : (Nat.toDigits 10 (row + 1)).all Char.isAlpha = false :=
        List.all_eq_false.mpr ⟨c, shown ▸ List.mem_cons_self, by simp [digit]⟩
      show read (Coordinate.dollar fixed ++ Nat.toDigits 10 (row + 1)) = _
      unfold read
      simp only [read?_digits, Coordinate.takeDollar_dollar fixed plain, numbered, all, letters,
        Decimal.ofDigits_toDigits, below, if_true, Bool.false_eq_true, if_false]
  | some a =>
    obtain ⟨column, fixed⟩ := a
    have inside : column ≤ Column.lastOfThree := nameable.column _ rfl
    cases row with
    | none =>
      have start := Coordinate.head?_letters column []
      rw [List.append_nil] at start
      have named : (Column.letters column).isEmpty = false := by simpa using Column.letters_ne_nil column
      have short : ¬3 < (Column.letters column).length :=
        Nat.not_lt.mpr (Column.length_letters_le inside)
      have below : column < indexBound := Nat.lt_of_le_of_lt inside (by decide)
      have letters : (Column.letters column).all Char.isAlpha = true :=
        List.all_eq_true.mpr fun c listed => by
          rw [Text.isAlpha_eq, Column.isUpper_of_mem_letters listed, Bool.true_or]
      have capitals := Column.map_toUpper_letters column
      have written : chars ⟨none, some ⟨column, fixed⟩⟩ =
          Coordinate.dollar fixed ++ Column.letters column := List.append_nil _
      rw [written]
      unfold read
      simp only [read?_letters, Coordinate.takeDollar_dollar fixed start, named, letters, short,
        capitals, Column.ofLetters?_letters below, Bool.false_eq_true, if_true, if_false,
        Option.map_some]
    | some b =>
      obtain ⟨row, rowFixed⟩ := b
      obtain ⟨onGrid, onGrid'⟩ := nameable.cell _ rfl _ rfl
      have written : chars ⟨some ⟨row, rowFixed⟩, some ⟨column, fixed⟩⟩ =
          (Coordinate.mk row column rowFixed fixed onGrid onGrid').chars := by
        simp [chars, Coordinate.chars]
      rw [written, read, Coordinate.read?_chars]
      rfl

end Corner

end Spreadsheet
