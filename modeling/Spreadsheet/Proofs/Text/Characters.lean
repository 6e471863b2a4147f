import Spreadsheet.Text.LetterCase

/-!
# Letters, digits and blanks

Capitals, small letters and digits have numbers without gaps, letters alone have another case, and no
visible character is a blank.
-/
namespace Spreadsheet.Text

variable {c : Char}

/-- Capitals are numbered without gaps. -/
theorem isUpper_iff {c : Char} : c.isUpper = true ↔ 65 ≤ c.toNat ∧ c.toNat ≤ 90 :=
  decide_eq_true_iff

/-- Small letters are numbered without gaps. -/
theorem isLower_iff {c : Char} : c.isLower = true ↔ 97 ≤ c.toNat ∧ c.toNat ≤ 122 := by
  have both : c.isLower = true ↔ (decide ('a'.val ≤ c.val) && decide (c.val ≤ 'z'.val)) = true := Iff.rfl
  rw [both, Bool.and_eq_true, decide_eq_true_iff, decide_eq_true_iff]
  exact Iff.rfl

/-- A letter is a capital or a small letter. -/
theorem isAlpha_eq (c : Char) : c.isAlpha = (c.isUpper || c.isLower) := rfl

/-- A capital is its own capital. -/
theorem toUpper_of_isUpper {c : Char} (capital : c.isUpper = true) : c.toUpper = c := by
  have bounds := isUpper_iff.mp capital
  have other : ¬('a'.val ≤ c.val ∧ c.val ≤ 'z'.val) := fun small => by
    have first : 97 ≤ c.toNat := small.1
    omega
  unfold Char.toUpper
  rw [dif_neg other]

/-- A digit is no letter. -/
theorem isAlpha_of_isDigit {c : Char} (digit : c.isDigit = true) : c.isAlpha = false := by
  have bounds : 48 ≤ c.toNat ∧ c.toNat ≤ 57 := Char.isDigit_iff_toNat.mp digit
  have capital : ¬c.isUpper = true := fun capital => by
    have first := isUpper_iff.mp capital
    omega
  have small : ¬c.isLower = true := fun small => by
    have first := isLower_iff.mp small
    omega
  simp [isAlpha_eq, capital, small]

/-- What is no letter is its own capital and its own small letter. -/
theorem toUpper_of_not_isAlpha (other : c.isAlpha = false) : c.toUpper = c ∧ c.toLower = c := by
  obtain ⟨capital, small⟩ := Bool.or_eq_false_iff.mp other
  have notSmall : ¬('a'.val ≤ c.val ∧ c.val ≤ 'z'.val) := fun bounds => by
    have lower : c.isLower = true := isLower_iff.mpr bounds
    rw [small] at lower
    contradiction
  have notCapital : ¬('A'.val ≤ c.val ∧ c.val ≤ 'Z'.val) := fun bounds => by
    have upper : c.isUpper = true := isUpper_iff.mpr bounds
    rw [capital] at upper
    contradiction
  unfold Char.toUpper Char.toLower
  rw [dif_neg notSmall, dif_neg notCapital]
  exact ⟨rfl, rfl⟩

/-- The capital of a small letter stands thirty-two places before it. -/
theorem toNat_toUpper {c : Char} (small : c.isLower = true) : c.toUpper.toNat = c.toNat - 32 := by
  have bounds := isLower_iff.mp small
  have moved : (c.val + ('A'.val - 'a'.val)).toNat = c.toNat - 32 := by
    rw [UInt32.toNat_add]
    show (c.toNat + 4294967264) % 4294967296 = c.toNat - 32
    omega
  unfold Char.toUpper
  rw [dif_pos ⟨bounds.1, bounds.2⟩]
  exact moved

/-- The capital of a letter is one. -/
theorem isUpper_toUpper {c : Char} (letter : c.isAlpha = true) : c.toUpper.isUpper = true := by
  rw [isAlpha_eq, Bool.or_eq_true] at letter
  rcases letter with capital | small
  · rwa [toUpper_of_isUpper capital]
  · have bounds := isLower_iff.mp small
    have moved := toNat_toUpper small
    apply isUpper_iff.mpr
    omega

/-- A character is a letter exactly if its capital is. -/
theorem isAlpha_toUpper (c : Char) : c.toUpper.isAlpha = c.isAlpha := by
  by_cases letter : c.isAlpha = true
  · rw [letter, isAlpha_eq, isUpper_toUpper letter]
    rfl
  · rw [(toUpper_of_not_isAlpha (Bool.eq_false_iff.mpr letter)).1]

/-- Capitals are their own capitals. -/
theorem toUpper_toUpper (c : Char) : c.toUpper.toUpper = c.toUpper := by
  by_cases letter : c.isAlpha = true
  · exact toUpper_of_isUpper (isUpper_toUpper letter)
  · have same := (toUpper_of_not_isAlpha (Bool.eq_false_iff.mpr letter)).1
    rw [same, same]

/-- A character is a digit exactly if its capital is. -/
theorem isDigit_toUpper (c : Char) : c.toUpper.isDigit = c.isDigit := by
  by_cases letter : c.isAlpha = true
  · have capital : c.toUpper.isAlpha = true := (isAlpha_toUpper c).trans letter
    have other : c.isDigit = false := Bool.eq_false_iff.mpr fun digit => by
      rw [isAlpha_of_isDigit digit] at letter
      contradiction
    have other' : c.toUpper.isDigit = false := Bool.eq_false_iff.mpr fun digit => by
      rw [isAlpha_of_isDigit digit] at capital
      contradiction
    rw [other, other']
  · rw [(toUpper_of_not_isAlpha (Bool.eq_false_iff.mpr letter)).1]

/-- Digits are their own capitals. -/
theorem map_toUpper_of_digits {digits : List Char} (all : ∀ c ∈ digits, c.isDigit = true) :
    digits.map Char.toUpper = digits := by
  have same : ∀ c ∈ digits, c.toUpper = c := fun c listed =>
    (toUpper_of_not_isAlpha (isAlpha_of_isDigit (all c listed))).1
  exact (List.map_congr_left same).trans (List.map_id' digits)

/-- Capitals replace the small letters of a text. -/
theorem toList_upperAscii (text : String) : (upperAscii text).toList = text.toList.map Char.toUpper :=
  String.toList_map

/-- Texts are equal in whatever case if their capitals are. -/
theorem sameIgnoringCase_iff {left right : String} :
    sameIgnoringCase left right = true ↔ left.toList.map Char.toUpper = right.toList.map Char.toUpper := by
  unfold sameIgnoringCase
  rw [beq_iff_eq, ← String.toList_inj, toList_upperAscii, toList_upperAscii]

/-- A word of letters differs from a text that has another character, in whatever case. -/
theorem sameIgnoringCase_eq_false {text : List Char} (listed : c ∈ text) (other : c.isAlpha = false)
    {word : String} (letters : (word.toList.map Char.toUpper).all Char.isAlpha = true) :
    sameIgnoringCase (String.ofList text) word = false := by
  refine Bool.eq_false_iff.mpr fun same => ?_
  have shown : c ∈ text.map Char.toUpper :=
    List.mem_map.mpr ⟨c, listed, (toUpper_of_not_isAlpha other).1⟩
  rw [sameIgnoringCase_iff, String.toList_ofList] at same
  rw [same] at shown
  have letter := List.all_eq_true.mp letters c shown
  rw [other] at letter
  contradiction

/-- What one predicate holds of is split off in front of where it fails. -/
theorem span_append {p : Char → Bool} {front : List Char} (all : ∀ c ∈ front, p c = true)
    (rest : List Char) (apart : ∀ c ∈ rest.head?, p c = false) :
    (front ++ rest).takeWhile p = front ∧ (front ++ rest).dropWhile p = rest := by
  have stops : rest.takeWhile p = [] ∧ rest.dropWhile p = rest := by
    cases rest with
    | nil => exact ⟨rfl, rfl⟩
    | cons c tail =>
      have other := apart c rfl
      simp [other]
  rw [List.takeWhile_append_of_pos all, List.dropWhile_append_of_pos all, stops.1, stops.2,
    List.append_nil]
  exact ⟨rfl, rfl⟩

/-- Visible ASCII characters are no blanks. -/
theorem isBlank_of_visible {c : Char} (first : 33 ≤ c.toNat) (last : c.toNat ≤ 126) :
    Text.isBlank c = false := by
  simp only [Text.isBlank, Text.inRanges, Text.blankRanges, List.any_cons, List.any_nil, Bool.or_false,
    Bool.or_eq_false_iff, Bool.and_eq_false_iff, decide_eq_false_iff_not]
  omega

/-- A text that neither starts nor ends with a blank is trimmed already. -/
theorem trim_of_not_isBlank {text : List Char} (first : ∀ c ∈ text.head?, Text.isBlank c = false)
    (last : ∀ c ∈ text.getLast?, Text.isBlank c = false) : Text.trim text = text := by
  have kept : ∀ text : List Char, (∀ c ∈ text.head?, Text.isBlank c = false) →
      text.dropWhile Text.isBlank = text := by
    intro text start
    cases text with
    | nil => rfl
    | cons c rest => exact List.dropWhile_cons_of_neg (by simp [start c rfl])
  unfold Text.trim
  rw [kept text first, kept text.reverse (by rwa [List.head?_reverse]), List.reverse_reverse]

end Spreadsheet.Text
