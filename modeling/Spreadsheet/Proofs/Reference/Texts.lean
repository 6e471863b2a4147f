import Spreadsheet.Proofs.Redirection.OrderedReferences
import Spreadsheet.Proofs.Reference.Corners

/-!
# Texts of references

A reference reads back as it is written, on its own sheet or on a named one, with or without quotes.
-/
namespace Spreadsheet

/-! ### Sheet names -/

/-- A quoted name is read up to its mark. -/
theorem readQuotedName?_doubleQuotes (name rest : List Char) :
    readQuotedName? (doubleQuotes '\'' name ++ '\'' :: '!' :: rest) = some (name, rest) := by
  induction name with
  | nil => rfl
  | cons c name ih =>
    unfold doubleQuotes
    split
    · rename_i same
      rw [same, List.cons_append, List.cons_append, readQuotedName?, ih]
      rfl
    · rename_i other
      rw [List.cons_append, readQuotedName?.eq_def]
      split
      · rename_i same
        exact absurd (List.cons.inj same).1 other
      · rename_i same
        exact absurd (List.cons.inj same).1 other
      · rename_i same
        exact absurd (List.cons.inj same).1 other
      · contradiction
      · rename_i same
        obtain ⟨rfl, rfl⟩ := List.cons.inj same
        rw [ih]
        rfl

/-- A name in front of the last mark is split off. -/
theorem splitLastMark?_append {name : List Char} (some' : name ≠ []) {rest : List Char}
    (plain : '!' ∉ rest) : splitLastMark? (name ++ '!' :: rest) = some (name, rest) := by
  have others : ∀ c ∈ rest.reverse, (c != '!') = true := by
    intro c listed
    rw [List.mem_reverse] at listed
    simp only [bne_iff_ne, ne_eq]
    rintro rfl
    exact plain listed
  obtain ⟨c, tail, reversed⟩ := List.exists_cons_of_ne_nil (List.reverse_ne_nil_iff.mpr some')
  have back : tail.reverse ++ [c] = name := by
    rw [← List.reverse_cons, ← reversed, List.reverse_reverse]
  unfold splitLastMark?
  simp only [List.reverse_append, List.reverse_cons, List.append_assoc, List.singleton_append]
  rw [List.dropWhile_append_of_pos others, List.takeWhile_append_of_pos others, reversed]
  simp [back]

/-- Without a mark there is no name. -/
theorem splitLastMark?_eq_none {text : List Char} (plain : '!' ∉ text) :
    splitLastMark? text = none := by
  have others : ∀ c ∈ text.reverse, (c != '!') = true := by
    intro c listed
    rw [List.mem_reverse] at listed
    simp only [bne_iff_ne, ne_eq]
    rintro rfl
    exact plain listed
  have dropped : (text.reverse ++ []).dropWhile (· != '!') = [] :=
    List.dropWhile_append_of_pos others
  rw [List.append_nil] at dropped
  unfold splitLastMark?
  dsimp only
  rw [dropped]

/-- A plain name does not start with a quote and is not empty. -/
theorem isPlainName_spec {name : List Char} (plain : isPlainName name = true) :
    name ≠ [] ∧ ∀ c ∈ name, c.isAlphanum = true ∨ c = '_' ∨ c = '.' := by
  cases name with
  | nil => contradiction
  | cons c rest =>
    unfold isPlainName at plain
    simp only [Bool.and_eq_true, List.all_eq_true, Bool.or_eq_true, beq_iff_eq, or_assoc] at plain
    exact ⟨List.cons_ne_nil c rest, plain.2⟩

/-- Only what starts with a quote can start with a quoted name. -/
theorem splitSheet_of_head?_ne {text : List Char} (start : text.head? ≠ some '\'') :
    splitSheet text =
      match splitLastMark? text with
      | some (name, rest) => (some name, rest)
      | none => (none, text) := by
  cases text with
  | nil => rfl
  | cons c rest =>
    have other : c ≠ '\'' := fun same => start (congrArg some same)
    unfold splitSheet
    split
    · rename_i same
      exact absurd (List.cons.inj same).1 other
    · cases splitLastMark? (c :: rest) <;> rfl

/-- A name of a sheet is split off where it is written. -/
theorem splitSheet_sheetNameChars (name : List Char) {rest : List Char} (plain : '!' ∉ rest) :
    splitSheet (sheetNameChars name ++ '!' :: rest) = (some name, rest) := by
  unfold sheetNameChars
  split
  · rename_i word
    obtain ⟨some', all⟩ := isPlainName_spec word
    have start : (name ++ '!' :: rest).head? ≠ some '\'' := by
      obtain ⟨c, tail, rfl⟩ := List.exists_cons_of_ne_nil some'
      intro first
      obtain rfl := Option.some.inj first
      exact absurd (all _ List.mem_cons_self) (by decide)
    rw [splitSheet_of_head?_ne start, splitLastMark?_append some' plain]
  · have quoted := readQuotedName?_doubleQuotes name rest
    have shape : '\'' :: doubleQuotes '\'' name ++ ['\''] ++ '!' :: rest =
        '\'' :: (doubleQuotes '\'' name ++ '\'' :: '!' :: rest) := by simp
    rw [shape]
    show (match readQuotedName? (doubleQuotes '\'' name ++ '\'' :: '!' :: rest) <|> _ with
      | some (name, rest) => (some name, rest)
      | none => _) = _
    rw [quoted]
    rfl

/-- Nothing is split off a text without a mark. -/
theorem splitSheet_of_not_mem {text : List Char} (plain : '!' ∉ text) (start : text.head? ≠ some '\'') :
    splitSheet text = (none, text) := by
  rw [splitSheet_of_head?_ne start, splitLastMark?_eq_none plain]

/-! ### Corners and coordinates -/

/-- A character that references use for rows and columns. -/
def isReferenceChar (c : Char) : Bool := c.isUpper || c.isDigit || c == '$' || c == ':'

/-- Such characters are visible and none of those that sheet names bring along. -/
theorem isReferenceChar_spec {c : Char} (used : isReferenceChar c = true) :
    Text.isBlank c = false ∧ c ≠ '!' ∧ c ≠ '#' ∧ c ≠ '\'' := by
  have bounds : 36 ≤ c.toNat ∧ c.toNat ≤ 90 ∧ c.toNat ≠ 39 := by
    simp only [isReferenceChar, Bool.or_eq_true, Text.isUpper_iff, beq_iff_eq] at used
    rcases used with ((capital | digit) | rfl) | rfl
    · omega
    · have range : 48 ≤ c.toNat ∧ c.toNat ≤ 57 := Char.isDigit_iff_toNat.mp digit
      omega
    · decide
    · decide
  refine ⟨Text.isBlank_of_visible (by omega) (by omega), ?_, ?_, ?_⟩
  · rintro rfl
    exact absurd bounds.1 (by decide)
  · rintro rfl
    exact absurd bounds.1 (by decide)
  · rintro rfl
    exact bounds.2.2 rfl

/-- A corner is written with a dollar sign, letters and digits. -/
theorem Corner.isReferenceChar_of_mem {corner : Corner} {c : Char} (listed : c ∈ corner.chars) :
    isReferenceChar c = true ∧ c ≠ ':' := by
  have dollar : ∀ fixed, c ∈ Coordinate.dollar fixed → isReferenceChar c = true ∧ c ≠ ':' := by
    intro fixed sign
    cases fixed with
    | false => contradiction
    | true =>
      obtain rfl := List.mem_singleton.mp sign
      decide
  have letters : ∀ column, c ∈ Column.letters column → isReferenceChar c = true ∧ c ≠ ':' := by
    intro column letter
    have capital := Column.isUpper_of_mem_letters letter
    refine ⟨by simp [isReferenceChar, capital], ?_⟩
    rintro rfl
    contradiction
  have digits : ∀ n, c ∈ Nat.toDigits 10 n → isReferenceChar c = true ∧ c ≠ ':' := by
    intro n number
    have digit := (Coordinate.digits_spec n).2.1 c number
    refine ⟨by simp [isReferenceChar, digit], ?_⟩
    rintro rfl
    contradiction
  obtain ⟨row, column⟩ := corner
  rcases List.mem_append.mp listed with inColumn | inRow
  · cases column with
    | none => contradiction
    | some a => exact (List.mem_append.mp inColumn).elim (dollar _) (letters _)
  · cases row with
    | none => contradiction
    | some a => exact (List.mem_append.mp inRow).elim (dollar _) (digits _)

/-- A corner that gives a row or a column is written. -/
theorem Corner.chars_ne_nil {corner : Corner} (given : corner.isBare = false) : corner.chars ≠ [] := by
  obtain ⟨row, column⟩ := corner
  cases column with
  | some a =>
    exact List.append_ne_nil_of_left_ne_nil
      (List.append_ne_nil_of_right_ne_nil _ (Column.letters_ne_nil a.index)) _
  | none =>
    cases row with
    | none => contradiction
    | some a =>
      exact List.append_ne_nil_of_right_ne_nil _
        (List.append_ne_nil_of_right_ne_nil _ Nat.toDigits_ne_nil)

/-- A coordinate is written as the corner at it. -/
theorem Coordinate.chars_eq (c : Coordinate) : c.chars = (Corner.ofCoordinate c).chars := by
  simp [Corner.ofCoordinate, Corner.chars, chars]

namespace Reference

variable {target : Reference}

/-- A reference that a formula can write: the name of its sheet has no number sign, and the corners of
a range are in order. -/
structure Writable (target : Reference) : Prop where
  sheet : ∀ name ∈ target.sheet, '#' ∉ name.toList
  corners : ∀ named start stop, target = .range named start stop → start.Writable ∧ stop.Writable
  ordered : target.Ordered

/-- The corners of a range can be named. -/
def CornersNameable : Reference → Prop
  | .cell _ _ => True
  | .range _ start stop => start.Nameable ∧ stop.Nameable

/-- A reference whose parts can be named: the name of its sheet has no number sign, and the corners of a
range can be named. -/
structure Nameable (target : Reference) : Prop where
  sheet : ∀ name ∈ target.sheet, '#' ∉ name.toList
  corners : target.CornersNameable

instance (target : Reference) : Decidable target.CornersNameable :=
  match target with
  | .cell _ _ => inferInstanceAs (Decidable True)
  | .range _ start stop => inferInstanceAs (Decidable (start.Nameable ∧ stop.Nameable))

instance (target : Reference) : Decidable target.Nameable :=
  decidable_of_iff ((∀ name ∈ target.sheet, '#' ∉ name.toList) ∧ target.CornersNameable)
    ⟨fun ⟨sheet, corners⟩ => ⟨sheet, corners⟩, fun ⟨sheet, corners⟩ => ⟨sheet, corners⟩⟩

/-- A reference that reads back: its parts can be named, and its corners give something and are in
order. -/
structure Legible (target : Reference) : Prop where
  nameable : target.Nameable
  filled : target.Filled
  ordered : target.Ordered

/-- A reference in its normal form, whatever its sheet is called: its corners can be named, give something
and are in order. -/
structure Normal (target : Reference) : Prop where
  corners : target.CornersNameable
  filled : target.Filled
  ordered : target.Ordered

/-- A range on the grid is in its normal form once its corners are in order. -/
theorem normal_of_writable {sheet : Option String} {start stop : Corner} (first : start.Writable)
    (last : stop.Writable) (ordered : (range sheet start stop).Ordered) : (range sheet start stop).Normal :=
  ⟨⟨first.nameable, last.nameable⟩, ⟨first.given, last.given⟩, ordered⟩

/-- A reference that reads back is in its normal form. -/
theorem Legible.normal (legible : target.Legible) : target.Normal :=
  ⟨legible.nameable.corners, legible.filled, legible.ordered⟩

/-- A reference that a formula can write is in its normal form. -/
theorem Writable.normal (writable : target.Writable) : target.Normal := by
  cases target with
  | cell sheet c => exact ⟨trivial, trivial, trivial⟩
  | range sheet start stop =>
    obtain ⟨first, last⟩ := writable.corners sheet start stop rfl
    exact normal_of_writable first last writable.ordered

/-- A reference that a formula can write reads back. -/
theorem Writable.legible (writable : target.Writable) : target.Legible where
  nameable := ⟨writable.sheet, writable.normal.corners⟩
  filled := writable.normal.filled
  ordered := writable.ordered

/-- The text of a reference without its sheet. -/
def placeChars : Reference → List Char
  | .cell _ c => c.chars
  | .range _ start stop => start.chars ++ ':' :: stop.chars

/-- The text of the sheet of a reference and the mark behind it. -/
def sheetChars (target : Reference) : List Char :=
  match target.sheet with
  | some name => sheetNameChars name.toList ++ ['!']
  | none => []

/-- A reference is written with its sheet in front. -/
theorem chars_eq (target : Reference) : target.chars = target.sheetChars ++ target.placeChars := by
  cases target with
  | cell sheet c => rfl
  | range sheet start stop => exact List.append_assoc _ _ _

/-- Rows and columns are written with their own characters. -/
theorem isReferenceChar_of_mem {c : Char} (listed : c ∈ target.placeChars) :
    isReferenceChar c = true := by
  cases target with
  | cell sheet coordinate =>
    rw [placeChars, Coordinate.chars_eq] at listed
    exact (Corner.isReferenceChar_of_mem listed).1
  | range sheet start stop =>
    rw [placeChars, List.mem_append, List.mem_cons] at listed
    rcases listed with first | rfl | last
    · exact (Corner.isReferenceChar_of_mem first).1
    · rfl
    · exact (Corner.isReferenceChar_of_mem last).1

/-- Something is written for rows and columns. -/
theorem placeChars_ne_nil (target : Reference) : target.placeChars ≠ [] := by
  cases target with
  | cell sheet coordinate =>
    rw [placeChars, Coordinate.chars_eq]
    exact Corner.chars_ne_nil rfl
  | range sheet start stop => exact List.append_ne_nil_of_right_ne_nil _ (List.cons_ne_nil _ _)

/-- Rows and columns are written without a mark, and do not start with a quote. -/
theorem placeChars_plain (target : Reference) :
    '!' ∉ target.placeChars ∧ target.placeChars.head? ≠ some '\'' := by
  refine ⟨fun listed => ?_, fun first => ?_⟩
  · exact (isReferenceChar_spec (isReferenceChar_of_mem listed)).2.1 rfl
  · exact (isReferenceChar_spec (isReferenceChar_of_mem (List.mem_of_mem_head? first))).2.2.2 rfl

/-- A name of a sheet is written without a blank in front. -/
theorem isBlank_head?_sheetNameChars {name : List Char} {c : Char}
    (first : c ∈ (sheetNameChars name).head?) : Text.isBlank c = false := by
  unfold sheetNameChars at first
  split at first
  · rename_i word
    rcases (isPlainName_spec word).2 c (List.mem_of_mem_head? first) with alphanumeric | rfl | rfl
    · have bounds : 48 ≤ c.toNat ∧ c.toNat ≤ 122 := by
        rw [Char.isAlphanum, Text.isAlpha_eq, Bool.or_eq_true, Bool.or_eq_true, Text.isUpper_iff,
          Text.isLower_iff, Char.isDigit_iff_toNat] at alphanumeric
        have digits : '0'.toNat = 48 ∧ '9'.toNat = 57 := ⟨rfl, rfl⟩
        omega
      exact Text.isBlank_of_visible (by omega) (by omega)
    · rfl
    · rfl
  · obtain rfl := Option.some.inj first
    rfl

/-- A written reference has no blanks around it. -/
theorem trim_chars (target : Reference) : Text.trim target.chars = target.chars := by
  have some' := target.placeChars_ne_nil
  rw [chars_eq]
  refine Text.trim_of_not_isBlank (fun c first => ?_) fun c last => ?_
  · rw [List.head?_append] at first
    unfold sheetChars at first
    cases named : target.sheet with
    | none =>
      rw [named] at first
      exact (isReferenceChar_spec (isReferenceChar_of_mem (List.mem_of_mem_head? first))).1
    | some name =>
      rw [named, List.head?_append] at first
      cases start : (sheetNameChars name.toList).head? with
      | none =>
        rw [start] at first
        obtain rfl := Option.some.inj first
        rfl
      | some d =>
        rw [start] at first
        obtain rfl := Option.some.inj first
        exact isBlank_head?_sheetNameChars start
  · rw [List.getLast?_append, List.getLast?_eq_some_getLast some', Option.some_or,
      ← List.getLast?_eq_some_getLast some'] at last
    exact (isReferenceChar_spec (isReferenceChar_of_mem (List.mem_of_mem_getLast? last))).1

/-- The name of the sheet is split off a written reference. -/
theorem splitSheet_chars (target : Reference) :
    splitSheet target.chars = (target.sheet.map String.toList, target.placeChars) := by
  obtain ⟨unmarked, unquoted⟩ := target.placeChars_plain
  rw [chars_eq]
  unfold sheetChars
  cases target.sheet with
  | none => exact splitSheet_of_not_mem unmarked unquoted
  | some name =>
    rw [List.append_assoc]
    exact splitSheet_sheetNameChars name.toList unmarked

/-- Rows and columns are written without blanks. -/
theorem dropBlanks_placeChars (target : Reference) :
    Text.dropBlanks target.placeChars = target.placeChars := by
  refine List.filter_eq_self.mpr fun c listed => ?_
  rw [(isReferenceChar_spec (isReferenceChar_of_mem listed)).1]
  rfl

/-- The corners of a range are read around the colon. -/
theorem readRange_append (named : Option String) (start stop : Corner) :
    readRange named (start.chars ++ ':' :: stop.chars) = (do
      let first ← Corner.read start.chars
      let last ← Corner.read stop.chars
      if first.isBare || last.isBare then throw (.range (String.ofList (start.chars ++ ':' :: stop.chars)))
      return between named first last) := by
  have others : ∀ c ∈ start.chars, (c != ':') = true := fun c listed => by
    simpa using (Corner.isReferenceChar_of_mem listed).2
  unfold readRange
  rw [List.takeWhile_append_of_pos others, List.dropWhile_append_of_pos others]
  show (Corner.read (start.chars ++ [])) >>= _ = _
  rw [List.append_nil]
  rfl

/-- The corners of a range are found around the colon. -/
theorem readRange_chars {named : Option String} {start stop : Corner} (first : start.Nameable)
    (last : stop.Nameable) (filled : start.isBare = false ∧ stop.isBare = false) :
    readRange named (start.chars ++ ':' :: stop.chars) = .ok (between named start stop) := by
  rw [readRange_append, Corner.read_chars filled.1 first, Corner.read_chars filled.2 last]
  simp only [bind, Except.bind, filled.1, filled.2]
  rfl

/-- A reference to a cell is read as it is written. -/
theorem read_cell_chars (sheet : Option String) (c : Coordinate) :
    read (chars (.cell sheet c)) = .ok (.cell sheet c) := by
  have single : c.chars.contains ':' = false := by
    rw [Coordinate.chars_eq, Bool.eq_false_iff]
    intro found
    exact (Corner.isReferenceChar_of_mem (List.contains_iff_mem.mp found)).2 rfl
  have blanks : Text.dropBlanks c.chars = c.chars := dropBlanks_placeChars (.cell sheet c)
  unfold read
  rw [trim_chars, splitSheet_chars]
  dsimp only [placeChars]
  rw [blanks, single, Coordinate.read?_chars, Option.map_map]
  cases sheet <;> simp [Reference.sheet]

/-- A range is read from its corners as they are written, on the sheet it names. -/
theorem read_range_chars (sheet : Option String) (start stop : Corner) :
    read (chars (.range sheet start stop)) = readRange sheet (start.chars ++ ':' :: stop.chars) := by
  have colon : (start.chars ++ ':' :: stop.chars).contains ':' = true := by simp
  have blanks : Text.dropBlanks (start.chars ++ ':' :: stop.chars) = start.chars ++ ':' :: stop.chars :=
    dropBlanks_placeChars (.range sheet start stop)
  unfold read
  rw [trim_chars, splitSheet_chars]
  dsimp only [placeChars]
  rw [blanks, if_pos colon, Option.map_map]
  cases sheet <;> simp [Reference.sheet]

/-- A reference in its normal form is read as it is written. -/
theorem read_chars_of_normal (normal : target.Normal) : read target.chars = .ok target := by
  cases target with
  | cell sheet c => exact read_cell_chars sheet c
  | range sheet start stop =>
    rw [read_range_chars, readRange_chars normal.corners.1 normal.corners.2 normal.filled]
    exact congrArg Except.ok (between_of_ordered normal.ordered.1 normal.ordered.2)

end Reference

end Spreadsheet
