import Mathlib.Data.Char
import Mathlib.Data.List.Induction
import Mathlib.Data.List.Lex
import Spreadsheet.Proofs.Reference.NormalForms

/-!
# Texts of columns and coordinates

Capital letters are numerals without a zero: each column has one name, and of two names the longer one,
or the later one of the same length, names the larger column. A coordinate is read in any letter case,
and from no other texts than its own with zeros in front of the row number.
-/
namespace Spreadsheet

namespace Column

variable {letters other : List Char} {column column' value value' : Nat}

/-- A capital is the letter of its place in the alphabet. -/
theorem letter_letterIndex {c : Char} (capital : c.isUpper = true) : letter (letterIndex c) = c := by
  have bounds := Text.isUpper_iff.mp capital
  have first : 'A'.toNat = 65 := rfl
  unfold letter letterIndex
  rw [first, Nat.add_sub_cancel' bounds.1, Char.ofNat_toNat]

/-- One more letter at the end of a numeral. -/
theorem numeral_concat (letters : List Char) (c : Char) :
    numeral (letters ++ [c]) = 26 * numeral letters + (letterIndex c + 1) := by
  unfold numeral continued
  rw [List.foldl_append, List.foldl_cons, List.foldl_nil]

/-- Any letters write a positive numeral. -/
theorem numeral_pos (some' : letters ≠ []) : 0 < numeral letters := by
  obtain ⟨front, c, rfl⟩ := (List.eq_nil_or_concat' letters).resolve_left some'
  rw [numeral_concat]
  omega

/-- Capital letters are the letters of the column that they name. -/
theorem letters_numeral (some' : letters ≠ []) (capitals : ∀ c ∈ letters, c.isUpper = true) :
    Column.letters (numeral letters - 1) = letters := by
  induction letters using List.reverseRecOn with
  | nil => exact absurd rfl some'
  | append_singleton front c ih =>
    have capital : c.isUpper = true := capitals c (List.mem_append_right _ List.mem_cons_self)
    have small : letterIndex c < 26 := letterIndex_lt capital
    have same : letter (letterIndex c) = c := letter_letterIndex capital
    rw [numeral_concat]
    by_cases first : front = []
    · subst first
      have number : 26 * numeral [] + (letterIndex c + 1) - 1 = letterIndex c := by
        simp only [numeral, continued, List.foldl_nil]
        omega
      rw [number, letters_of_lt small, same, List.nil_append]
    · have positive := numeral_pos first
      have large : 26 ≤ 26 * numeral front + (letterIndex c + 1) - 1 := by omega
      have quotient : (26 * numeral front + (letterIndex c + 1) - 1) / 26 - 1 = numeral front - 1 := by
        omega
      have remainder : (26 * numeral front + (letterIndex c + 1) - 1) % 26 = letterIndex c := by omega
      rw [letters_of_le large, quotient, remainder, same,
        ih first fun c listed => capitals c (List.mem_append_left _ listed)]

/-- What letters that name a column are: some capitals, whose numeral is one more than the column. -/
theorem spec_of_ofLetters? (found : ofLetters? letters = some column) :
    letters ≠ [] ∧ (∀ c ∈ letters, c.isUpper = true) ∧ numeral letters = column + 1 ∧
      column < indexBound := by
  rw [ofLetters?_eq] at found
  split at found
  · contradiction
  · rename_i typed
    have lettered : ¬letters = [] ∧ ∀ c ∈ letters, c.isUpper = true := by simpa using typed
    have positive := numeral_pos lettered.1
    split at found
    · rename_i below
      obtain rfl := Option.some.inj found
      refine ⟨lettered.1, lettered.2, ?_, ?_⟩
      · omega
      · omega
    · contradiction

/-- Letters name a column exactly if they are the letters of it, and the column is below the bound. -/
theorem ofLetters?_eq_some_iff :
    ofLetters? letters = some column ↔ column < indexBound ∧ Column.letters column = letters := by
  constructor
  · intro found
    obtain ⟨some', capitals, number, below⟩ := spec_of_ofLetters? found
    have same := letters_numeral some' capitals
    rw [number, Nat.add_sub_cancel] at same
    exact ⟨below, same⟩
  · rintro ⟨below, rfl⟩
    exact ofLetters?_letters below

/-! ### The order of names -/

/-- Of two numerals the one that begins with less stays less behind as many letters more. -/
theorem continued_lt (length : letters.length = other.length)
    (capitals : ∀ c ∈ letters, c.isUpper = true) (less : value < value') :
    continued value letters < continued value' other := by
  induction letters generalizing other value value' with
  | nil =>
    obtain rfl := List.length_eq_zero_iff.mp length.symm
    exact less
  | cons c letters ih =>
    obtain ⟨d, other, rfl⟩ := List.exists_cons_of_length_eq_add_one length.symm
    have rest : letters.length = other.length := Nat.add_right_cancel length
    have small := letterIndex_lt (capitals c List.mem_cons_self)
    have step : 26 * value + (letterIndex c + 1) < 26 * value' + (letterIndex d + 1) := by omega
    show continued (26 * value + (letterIndex c + 1)) letters <
      continued (26 * value' + (letterIndex d + 1)) other
    exact ih rest (fun c listed => capitals c (List.mem_cons_of_mem _ listed)) step

/-- Of two names of one length the one that comes first in the alphabet writes the smaller numeral. -/
theorem continued_lt_of_lt (length : letters.length = other.length)
    (capitals : ∀ c ∈ letters, c.isUpper = true) (before : letters < other) :
    continued value letters < continued value other := by
  induction letters generalizing other value with
  | nil =>
    obtain rfl := List.length_eq_zero_iff.mp length.symm
    exact absurd before (lt_irrefl _)
  | cons c letters ih =>
    obtain ⟨d, other, rfl⟩ := List.exists_cons_of_length_eq_add_one length.symm
    have rest : letters.length = other.length := Nat.add_right_cancel length
    have others : ∀ c ∈ letters, c.isUpper = true := fun c listed =>
      capitals c (List.mem_cons_of_mem _ listed)
    rcases List.cons_lt_cons_iff.mp before with earlier | ⟨rfl, later⟩
    · have numbers : c.toNat < d.toNat := earlier
      have bound : 65 ≤ c.toNat := (Text.isUpper_iff.mp (capitals c List.mem_cons_self)).1
      have first : 'A'.toNat = 65 := rfl
      have step : 26 * value + (letterIndex c + 1) < 26 * value + (letterIndex d + 1) := by
        unfold letterIndex
        omega
      show continued (26 * value + (letterIndex c + 1)) letters <
        continued (26 * value + (letterIndex d + 1)) other
      exact continued_lt rest others step
    · show continued (26 * value + (letterIndex c + 1)) letters <
        continued (26 * value + (letterIndex c + 1)) other
      exact ih rest others later

/-- The least numeral of some number of letters. -/
def leastOfLength : Nat → Nat
  | 0 => 0
  | length + 1 => 26 * leastOfLength length + 1

/-- Longer numerals begin later. -/
theorem leastOfLength_mono {m n : Nat} (atMost : m ≤ n) : leastOfLength m ≤ leastOfLength n := by
  induction atMost with
  | refl => exact Nat.le_refl _
  | step _ ih =>
    rw [Nat.succ_eq_add_one, leastOfLength]
    omega

/-- A numeral lies between the least of its length and the least of the next one. -/
theorem numeral_bounds (capitals : ∀ c ∈ letters, c.isUpper = true) :
    leastOfLength letters.length ≤ numeral letters ∧
      numeral letters < leastOfLength (letters.length + 1) := by
  induction letters using List.reverseRecOn with
  | nil => exact ⟨Nat.le_refl 0, Nat.one_pos⟩
  | append_singleton front c ih =>
    have small := letterIndex_lt (capitals c (List.mem_append_right _ List.mem_cons_self))
    obtain ⟨lower, upper⟩ := ih fun c listed => capitals c (List.mem_append_left _ listed)
    rw [numeral_concat, List.length_append, List.length_singleton, leastOfLength, leastOfLength]
    omega

/-- A shorter name writes a smaller numeral. -/
theorem numeral_lt_of_length_lt (capitals : ∀ c ∈ letters, c.isUpper = true)
    (capitals' : ∀ c ∈ other, c.isUpper = true) (shorter : letters.length < other.length) :
    numeral letters < numeral other :=
  calc numeral letters
    _ < leastOfLength (letters.length + 1) := (numeral_bounds capitals).2
    _ ≤ leastOfLength other.length := leastOfLength_mono shorter
    _ ≤ numeral other := (numeral_bounds capitals').1

/-- Numerals of capital letters are ordered by length and then by alphabet. -/
theorem numeral_lt_iff (capitals : ∀ c ∈ letters, c.isUpper = true)
    (capitals' : ∀ c ∈ other, c.isUpper = true) :
    numeral letters < numeral other ↔
      letters.length < other.length ∨ letters.length = other.length ∧ letters < other := by
  have shorter := numeral_lt_of_length_lt capitals capitals'
  have longer := numeral_lt_of_length_lt capitals' capitals
  have earlier (length : letters.length = other.length) (before : letters < other) :
      numeral letters < numeral other := continued_lt_of_lt length capitals before
  have later (length : letters.length = other.length) (behind : other < letters) :
      numeral other < numeral letters := continued_lt_of_lt length.symm capitals' behind
  constructor
  · intro less
    rcases lt_trichotomy letters.length other.length with short | length | long
    · exact .inl short
    · rcases lt_trichotomy letters other with before | rfl | behind
      · exact .inr ⟨length, before⟩
      · exact absurd less (lt_irrefl _)
      · exact absurd less (later length behind).asymm
    · exact absurd less (longer long).asymm
  · rintro (short | ⟨length, before⟩)
    · exact shorter short
    · exact earlier length before

/-- Of two columns the one with the shorter name, or with the earlier one of the same length, is
smaller. -/
theorem lt_iff_of_ofLetters? (found : ofLetters? letters = some column)
    (found' : ofLetters? other = some column') :
    column < column' ↔
      letters.length < other.length ∨ letters.length = other.length ∧ letters < other := by
  obtain ⟨_, capitals, number, _⟩ := spec_of_ofLetters? found
  obtain ⟨_, capitals', number', _⟩ := spec_of_ofLetters? found'
  rw [← numeral_lt_iff capitals capitals', number, number', Nat.succ_lt_succ_iff]

end Column

namespace Decimal

/-- The digit that a character stands for is written as the character. -/
theorem toDigits_digitValue {c : Char} (digit : c.isDigit = true) :
    digitValue c < 10 ∧ Nat.toDigits 10 (digitValue c) = [c] := by
  have bounds : 48 ≤ c.toNat ∧ c.toNat ≤ 57 := Char.isDigit_iff_toNat.mp digit
  have zero : '0'.toNat = 48 := rfl
  have small : digitValue c < 10 := by
    unfold digitValue
    omega
  have same : (digitValue c).digitChar = c := by
    apply Char.toNat_inj.mp
    rw [Nat.toNat_digitChar_of_lt_ten small]
    unfold digitValue
    omega
  rw [Nat.toDigits_of_lt_base small, same]
  exact ⟨small, rfl⟩

/-- Digits behind those of a positive number are the digits of what all of them write. -/
theorem toDigits_foldl {digits : List Char} (all : ∀ c ∈ digits, c.isDigit = true) {value : Nat}
    (positive : 0 < value) :
    Nat.toDigits 10 (digits.foldl (fun value c => 10 * value + digitValue c) value) =
      Nat.toDigits 10 value ++ digits := by
  induction digits generalizing value with
  | nil => rw [List.foldl_nil, List.append_nil]
  | cons c digits ih =>
    obtain ⟨small, one⟩ := toDigits_digitValue (all c List.mem_cons_self)
    have step := Nat.toDigits_append_toDigits (b := 10) (by decide) positive small
    rw [List.foldl_cons, ih (fun c listed => all c (List.mem_cons_of_mem _ listed)) (by omega), ← step,
      one, List.append_assoc, List.singleton_append]

/-- The digits that write a positive number are its own, but for zeros in front. -/
theorem dropWhile_zeros {digits : List Char} (all : ∀ c ∈ digits, c.isDigit = true)
    (positive : 0 < ofDigits digits) :
    digits.dropWhile (· == '0') = Nat.toDigits 10 (ofDigits digits) := by
  induction digits with
  | nil => exact absurd positive (lt_irrefl _)
  | cons c digits ih =>
    have others : ∀ c ∈ digits, c.isDigit = true := fun c listed => all c (List.mem_cons_of_mem _ listed)
    by_cases zero : c = '0'
    · subst zero
      rw [List.dropWhile_cons_of_pos (by decide)]
      exact ih others positive
    · obtain ⟨_, one⟩ := toDigits_digitValue (all c List.mem_cons_self)
      have leading : 0 < digitValue c := by
        refine Nat.pos_of_ne_zero fun none => zero ?_
        rw [none] at one
        exact (List.cons.inj one).1.symm
      rw [List.dropWhile_cons_of_neg (by simpa using zero)]
      show _ = Nat.toDigits 10 (digits.foldl (fun value c => 10 * value + digitValue c)
        (10 * 0 + digitValue c))
      rw [Nat.mul_zero, Nat.zero_add, toDigits_foldl others leading, one, List.singleton_append]

end Decimal

namespace Coordinate

variable {text : List Char} {c : Coordinate}

/-! ### Letter case -/

/-- A dollar sign is its own capital, and that of no other character. -/
theorem toUpper_eq_dollar_iff (c : Char) : c.toUpper = '$' ↔ c = '$' := by
  constructor
  · intro same
    have plain : c.isAlpha = false := by
      rw [← Text.isAlpha_toUpper, same]
      rfl
    rwa [(Text.toUpper_of_not_isAlpha plain).1] at same
  · rintro rfl
    rfl

/-- A dollar sign is split off in any letter case. -/
theorem takeDollar_map_toUpper (text : List Char) :
    takeDollar (text.map Char.toUpper) =
      ((takeDollar text).1, (takeDollar text).2.map Char.toUpper) := by
  cases text with
  | nil => rfl
  | cons c rest =>
    by_cases sign : c = '$'
    · subst sign
      rfl
    · have other : c.toUpper ≠ '$' := fun same => sign ((toUpper_eq_dollar_iff c).mp same)
      have split : takeDollar (c :: rest) = (false, c :: rest) :=
        takeDollar_dollar false fun first => sign (Option.some.inj first)
      have split' : takeDollar (c.toUpper :: rest.map Char.toUpper) =
          (false, c.toUpper :: rest.map Char.toUpper) :=
        takeDollar_dollar false fun first => other (Option.some.inj first)
      rw [List.map_cons, split, split', List.map_cons]

/-- A coordinate is read in any letter case. -/
theorem read?_map_toUpper (text : List Char) : read? (text.map Char.toUpper) = read? text := by
  have letters : Char.isAlpha ∘ Char.toUpper = Char.isAlpha := funext Text.isAlpha_toUpper
  have digits : Char.isDigit ∘ Char.toUpper = Char.isDigit := funext Text.isDigit_toUpper
  have capitals : Char.toUpper ∘ Char.toUpper = Char.toUpper := funext Text.toUpper_toUpper
  unfold read?
  simp only [takeDollar_map_toUpper, List.takeWhile_map, List.dropWhile_map, letters, List.map_map,
    capitals, List.isEmpty_map, List.length_map, List.all_map, digits]
  split
  · rfl
  · rename_i typed
    simp only [Bool.or_eq_true, not_or, Bool.not_eq_true', Bool.not_eq_false] at typed
    rw [Text.map_toUpper_of_digits (List.all_eq_true.mp typed.2)]

/-! ### Texts that are read -/

/-- Nothing is lost when a dollar sign is split off. -/
theorem dollar_takeDollar (text : List Char) : dollar (takeDollar text).1 ++ (takeDollar text).2 = text := by
  unfold takeDollar
  split
  · rfl
  · rfl

/-- A coordinate that is made has the parts that it is made of. -/
theorem parts_of_make {row column : Nat} {rowFixed columnFixed : Bool}
    (made : (make row column rowFixed columnFixed).toOption = some c) :
    c.row = row ∧ c.column = column ∧ c.rowFixed = rowFixed ∧ c.columnFixed = columnFixed := by
  unfold make at made
  split at made
  · split at made
    · obtain rfl := Option.some.inj made
      exact ⟨rfl, rfl, rfl, rfl⟩
    · contradiction
  · contradiction

/-- A text that is read consists of the letters of the column and of digits of the row number, with the
dollar signs of both in front. -/
theorem exists_parts_of_read? (found : read? text = some c) :
    ∃ letters digits, text = dollar c.columnFixed ++ letters ++ dollar c.rowFixed ++ digits ∧
      Column.ofLetters? (letters.map Char.toUpper) = some c.column ∧
        (∀ d ∈ digits, d.isDigit = true) ∧ Decimal.ofDigits digits = c.row + 1 := by
  unfold read? at found
  dsimp only at found
  split at found
  · contradiction
  · rename_i typed
    simp only [Bool.or_eq_true, not_or, Bool.not_eq_true', Bool.not_eq_false] at typed
    split at found
    · rename_i column row lettered numbered
      obtain ⟨rows, columns, rowSign, columnSign⟩ := parts_of_make found
      refine ⟨_, _, ?_, columns ▸ lettered, List.all_eq_true.mp typed.2, rows ▸ numbered⟩
      rw [rowSign, columnSign, List.append_assoc, List.append_assoc, dollar_takeDollar,
        List.takeWhile_append_dropWhile, dollar_takeDollar]
    · contradiction

/-- The text without zeros in front of its number. -/
def dropRowZeros (text : List Char) : List Char :=
  text.takeWhile (fun d => !d.isDigit) ++ (text.dropWhile fun d => !d.isDigit).dropWhile (· == '0')

/-- Zeros are dropped between what is no digit and digits. -/
theorem dropRowZeros_append {front digits : List Char} (others : ∀ d ∈ front, d.isDigit = false)
    (all : ∀ d ∈ digits, d.isDigit = true) :
    dropRowZeros (front ++ digits) = front ++ digits.dropWhile (· == '0') := by
  have plain : ∀ d ∈ front, (!d.isDigit) = true := fun d listed => by rw [others d listed, Bool.not_false]
  have apart : ∀ d ∈ digits.head?, (!d.isDigit) = false := fun d first => by
    rw [all d (List.mem_of_mem_head? first), Bool.not_true]
  obtain ⟨taken, dropped⟩ := Text.span_append plain digits apart
  rw [dropRowZeros, taken, dropped]

/-- Before the row number a coordinate is written without digits. -/
theorem isDigit_of_mem_front (c : Coordinate) :
    ∀ d ∈ dollar c.columnFixed ++ Column.letters c.column ++ dollar c.rowFixed, d.isDigit = false := by
  have signs : ∀ fixed, ∀ d ∈ dollar fixed, d.isDigit = false := by
    intro fixed d listed
    cases fixed with
    | false => exact absurd listed List.not_mem_nil
    | true =>
      rw [List.mem_singleton.mp listed]
      rfl
  have letters : ∀ d ∈ Column.letters c.column, d.isDigit = false := fun d listed =>
    Bool.eq_false_iff.mpr fun digit => by
      have capital := Column.isUpper_of_mem_letters listed
      have other := Text.isAlpha_of_isDigit digit
      rw [Text.isAlpha_eq, capital, Bool.true_or] at other
      exact Bool.noConfusion other
  intro d listed
  rcases List.mem_append.mp listed with early | last
  · rcases List.mem_append.mp early with first | middle
    · exact signs _ d first
    · exact letters d middle
  · exact signs _ d last

/-- In capitals and without zeros in front of its number, a text that is read is the text of the
coordinate. -/
theorem dropRowZeros_of_read? (found : read? text = some c) :
    dropRowZeros (text.map Char.toUpper) = c.chars := by
  obtain ⟨letters, digits, rfl, lettered, all, number⟩ := exists_parts_of_read? found
  have signs : ∀ fixed, (dollar fixed).map Char.toUpper = dollar fixed := by decide
  have capitals : letters.map Char.toUpper = Column.letters c.column :=
    (Column.ofLetters?_eq_some_iff.mp lettered).2.symm
  have positive : 0 < Decimal.ofDigits digits := number ▸ Nat.succ_pos c.row
  rw [List.map_append, List.map_append, List.map_append, signs, signs, capitals,
    Text.map_toUpper_of_digits all, dropRowZeros_append (isDigit_of_mem_front c) all,
    Decimal.dropWhile_zeros all positive, number]
  rfl

/-- Columns and their letters, and coordinates and their texts, determine each other. Letters name a
column exactly if they are its own, and name a larger one if they are longer, or of one length and later
in the alphabet. A coordinate is read from its text in any letter case, dollar signs included, and a text
that is read is, in capitals and without zeros in front of the row number, the text of what is read. -/
theorem texts_read_back :
    (∀ letters column, Column.ofLetters? letters = some column ↔
      column < indexBound ∧ Column.letters column = letters) ∧
    (∀ letters other column column', Column.ofLetters? letters = some column →
      Column.ofLetters? other = some column' →
        (column < column' ↔
          letters.length < other.length ∨ letters.length = other.length ∧ letters < other)) ∧
    (∀ (c : Coordinate) text, text.map Char.toUpper = c.chars → read? text = some c) ∧
    ∀ text c, read? text = some c → dropRowZeros (text.map Char.toUpper) = c.chars := by
  refine ⟨fun letters column => Column.ofLetters?_eq_some_iff,
    fun letters other column column' found found' => Column.lt_iff_of_ofLetters? found found',
    fun c text same => ?_, fun text c found => dropRowZeros_of_read? found⟩
  rw [← read?_map_toUpper, same, read?_chars]

/-- The column `AB` lies behind `Z`, and `$ab$007` is read as what is written `$AB$7`. -/
theorem texts_read_back_of_small_letters :
    Column.ofLetters? "Z".toList = some 25 ∧ Column.ofLetters? "AB".toList = some 27 ∧
      (25 < 27 ↔ "Z".toList.length < "AB".toList.length ∨
        "Z".toList.length = "AB".toList.length ∧ "Z".toList < "AB".toList) ∧
      ∃ c : Coordinate, c.rowFixed = true ∧ c.columnFixed = true ∧
        read? "$ab$007".toList = some c ∧
          dropRowZeros ("$ab$007".toList.map Char.toUpper) = c.chars ∧
            read? (c.chars.map Char.toLower) = some c := by
  obtain ⟨_, order, back, forth⟩ := texts_read_back
  have first : Column.ofLetters? "Z".toList = some 25 := by decide +kernel
  have second : Column.ofLetters? "AB".toList = some 27 := by decide +kernel
  have typed : read? "$ab$007".toList = some ⟨6, 27, true, true, by decide, by decide⟩ := by
    decide +kernel
  have capitals := forth _ _ typed
  have written : dropRowZeros ("$ab$007".toList.map Char.toUpper) = "$AB$7".toList := by
    decide +kernel
  refine ⟨first, second, order _ _ _ _ first second, _, rfl, rfl, typed, capitals, back _ _ ?_⟩
  rw [← capitals, written]
  decide +kernel

end Coordinate

end Spreadsheet
