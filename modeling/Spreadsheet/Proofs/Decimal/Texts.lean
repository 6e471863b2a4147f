import Spreadsheet.Proofs.Decimal.Nearest
import Spreadsheet.Proofs.Text.Characters

/-!
# Texts of numbers

The fewest digits that name a double lie among the real numbers that round to it, and their positional
text is read as a decimal of the same value. So every finite number reads back from its text.
-/
namespace Spreadsheet.Decimal

/-! ### Fewest digits -/

namespace Scientific

variable {d d' d'' : Scientific}

/-- Decimals of equal value read back as the same doubles. -/
theorem SameValue.readsBack (same : d.SameValue d') (x : Exact) : x.readsBack d = x.readsBack d' := by
  unfold Exact.readsBack
  simp only [same.compareBinary]

/-- A decimal has its own value. -/
theorem SameValue.refl (d : Scientific) : d.SameValue d := rfl

/-- Values equal to the same one are equal. -/
theorem SameValue.trans (same : d.SameValue d') (other : d'.SameValue d'') : d.SameValue d'' := by
  unfold SameValue at same other ⊢
  refine Nat.eq_of_mul_eq_mul_right d'.denominator_pos ?_
  calc d.numerator * d''.denominator * d'.denominator
      = d.numerator * d'.denominator * d''.denominator := Nat.mul_right_comm _ _ _
    _ = d'.numerator * d''.denominator * d.denominator := by rw [same, Nat.mul_right_comm]
    _ = d''.numerator * d.denominator * d'.denominator := by rw [other, Nat.mul_right_comm]

/-- A zero at the end of the digits is a power of ten. -/
theorem sameValue_dropZero (ends : d.digits % 10 = 0) :
    d.SameValue ⟨d.digits / 10, d.exponent + 1⟩ := by
  have digits : d.digits / 10 * 10 = d.digits := Nat.div_mul_cancel (Nat.dvd_of_mod_eq_zero ends)
  unfold SameValue numerator denominator
  by_cases integral : 0 ≤ d.exponent
  · have more : (d.exponent + 1).toNat = d.exponent.toNat + 1 := by omega
    have none : (-(d.exponent + 1)).toNat = (-d.exponent).toNat := by omega
    show d.digits * 10 ^ d.exponent.toNat * 10 ^ (-(d.exponent + 1)).toNat =
      d.digits / 10 * 10 ^ (d.exponent + 1).toNat * 10 ^ (-d.exponent).toNat
    rw [more, none, Nat.pow_succ', ← Nat.mul_assoc (d.digits / 10), digits]
  · have none : (d.exponent + 1).toNat = d.exponent.toNat := by omega
    have fewer : (-d.exponent).toNat = (-(d.exponent + 1)).toNat + 1 := by omega
    show d.digits * 10 ^ d.exponent.toNat * 10 ^ (-(d.exponent + 1)).toNat =
      d.digits / 10 * 10 ^ (d.exponent + 1).toNat * 10 ^ (-d.exponent).toNat
    rw [none, fewer, Nat.pow_succ', ← Nat.mul_assoc, Nat.mul_right_comm (d.digits / 10), digits]

/-- Zeros at the end of the digits are a power of ten. -/
theorem sameValue_dropZeros (fuel : Nat) (d : Scientific) : d.SameValue (dropZeros fuel d) := by
  induction fuel generalizing d with
  | zero => exact .refl d
  | succ fuel ih =>
    unfold dropZeros
    split
    · rename_i ends
      exact (sameValue_dropZero ends.2).trans (ih _)
    · exact .refl d

end Scientific

namespace Exact

variable {x : Exact} {shift : Nat} {d : Scientific}

/-- A decimal strictly between the ends reads back. -/
theorem Placed.readsBack (placed : x.Placed shift)
    (above : x.lower * (2 ^ shift * d.denominator) < 4 * (d.numerator * 2 ^ binaryPlaces))
    (below : 4 * (d.numerator * 2 ^ binaryPlaces) <
      (4 * x.mantissa + 2) * (2 ^ shift * d.denominator)) : x.readsBack d = true := by
  have named : (if x.narrowBelow then 4 * x.mantissa - 1 else 4 * x.mantissa - 2) = x.lower := rfl
  unfold Exact.readsBack
  simp only [named, placed.exponent, d.compareBinary_eq]
  rw [Nat.compare_eq_gt.mpr above, Nat.compare_eq_lt.mpr below]
  rfl

/-- The exact value of a positive double reads back. -/
theorem Placed.readsBack_expand (placed : x.Placed shift) (positive : 0 < x.mantissa) :
    x.readsBack x.expand = true := by
  have places : binaryPlaces = 1074 := rfl
  have exponent := placed.exponent
  have balance : 2 ^ x.exponent.toNat * 2 ^ binaryPlaces = 2 ^ shift * 2 ^ (-x.exponent).toNat := by
    rw [← Nat.pow_add, ← Nat.pow_add]
    congr 1
    omega
  have whole : (min x.exponent 0).toNat = 0 := by omega
  have decimals : (-min x.exponent 0).toNat = (-x.exponent).toNat := by omega
  have exact' : x.expand.numerator * 2 ^ binaryPlaces =
      x.mantissa * (2 ^ shift * x.expand.denominator) := by
    show x.mantissa * 2 ^ x.exponent.toNat * 5 ^ (-x.exponent).toNat * 10 ^ (min x.exponent 0).toNat *
      2 ^ binaryPlaces = x.mantissa * (2 ^ shift * 10 ^ (-min x.exponent 0).toNat)
    have factors : 10 ^ (-x.exponent).toNat = 2 ^ (-x.exponent).toNat * 5 ^ (-x.exponent).toNat :=
      Nat.mul_pow 2 5 _
    rw [whole, decimals, factors, Nat.pow_zero, Nat.mul_one, ← Nat.mul_assoc (2 ^ shift), ← balance,
      Nat.mul_assoc x.mantissa, Nat.mul_assoc x.mantissa, Nat.mul_right_comm]
  have wide : 0 < 2 ^ shift * x.expand.denominator :=
    Nat.mul_pos (Nat.two_pow_pos shift) x.expand.denominator_pos
  have lower : x.lower < 4 * x.mantissa := by
    rcases placed.lower_eq with same | same <;> omega
  refine placed.readsBack ?_ ?_
  · rw [exact', ← Nat.mul_assoc 4]
    exact Nat.mul_lt_mul_of_pos_right lower wide
  · rw [exact', ← Nat.mul_assoc 4]
    exact Nat.mul_lt_mul_of_pos_right (by omega) wide

/-- What is found on a grid reads back. -/
theorem readsBack_of_onGrid? {exponent : Int} (found : x.onGrid? exponent = some d) :
    x.readsBack d = true := by
  unfold onGrid? at found
  dsimp only at found
  split at found
  · contradiction
  · rename_i lower _
    rwa [← Option.some.inj found]
  · rename_i _ upper
    rwa [← Option.some.inj found]
  · rename_i lower upper
    split at found
    · rwa [← Option.some.inj found]
    · rwa [← Option.some.inj found]

/-- The fewest digits of a positive double read back. -/
theorem Placed.readsBack_shortest (placed : x.Placed shift) (positive : 0 < x.mantissa) :
    x.readsBack x.shortest = true := by
  unfold shortest
  dsimp only
  rw [← (Scientific.sameValue_dropZeros _ _).readsBack]
  cases found : ((List.range 17).map fun (count : Nat) => x.scale - 1 - (count : Int)).findSome?
    x.onGrid? with
  | none => exact placed.readsBack_expand positive
  | some d =>
    obtain ⟨exponent, _, onGrid⟩ := List.exists_of_findSome?_eq_some found
    exact readsBack_of_onGrid? onGrid

end Exact

/-! ### Positional texts -/

/-- The digits of a number write it. -/
theorem ofDigits_toDigits (n : Nat) : ofDigits (Nat.toDigits 10 n) = n :=
  Nat.ofDigitChars_ten_toDigits

/-- Zeros behind the digits multiply by powers of ten. -/
theorem ofDigits_append_zeros (digits : List Char) (count : Nat) :
    ofDigits (digits ++ List.replicate count '0') = ofDigits digits * 10 ^ count := by
  induction count with
  | zero => rw [List.replicate_zero, List.append_nil, Nat.pow_zero, Nat.mul_one]
  | succ count ih =>
    rw [List.replicate_succ', ← List.append_assoc, ofDigits, List.foldl_append]
    show 10 * ofDigits (digits ++ List.replicate count '0') + 0 = _
    rw [ih, Nat.add_zero, Nat.pow_succ, Nat.mul_comm 10, Nat.mul_assoc]

/-- Zeros in front of the digits do not matter. -/
theorem ofDigits_zeros_append (count : Nat) (digits : List Char) :
    ofDigits (List.replicate count '0' ++ digits) = ofDigits digits := by
  induction count with
  | zero => rfl
  | succ count ih => exact ih

/-- Digits alone are read as an integer. -/
theorem readUnsigned?_integer {digits : List Char} (some' : digits ≠ [])
    (all : ∀ c ∈ digits, c.isDigit = true) : readUnsigned? digits = some ⟨ofDigits digits, 0⟩ := by
  obtain ⟨taken, dropped⟩ := Text.span_append all [] fun _ none => by contradiction
  rw [List.append_nil] at taken dropped
  have filled : digits.isEmpty = false := by simpa using some'
  unfold readUnsigned?
  simp only [taken, dropped, List.append_nil, filled]
  rfl

/-- Digits around a point are read as a decimal. -/
theorem readUnsigned?_decimal {whole places : List Char} (some' : whole ++ places ≠ [])
    (first : ∀ c ∈ whole, c.isDigit = true) (second : ∀ c ∈ places, c.isDigit = true) :
    readUnsigned? (whole ++ '.' :: places) =
      some ⟨ofDigits (whole ++ places), -(places.length : Int)⟩ := by
  obtain ⟨taken, dropped⟩ := Text.span_append first ('.' :: places) (by rintro _ ⟨⟩; rfl)
  obtain ⟨taken', dropped'⟩ := Text.span_append second [] fun _ none => by contradiction
  rw [List.append_nil] at taken' dropped'
  have filled : (whole ++ places).isEmpty = false := by simpa using some'
  unfold readUnsigned?
  simp only [taken, dropped, taken', dropped', filled]
  rfl

namespace Scientific

/-- The text of a decimal with zeros in front of its digits where it has too few places. -/
def padded (d : Scientific) : List Char :=
  List.replicate (d.exponent.natAbs + 1 - (Nat.toDigits 10 d.digits).length) '0' ++
    Nat.toDigits 10 d.digits

/-- The positional text of a decimal is made of digits, with a point between some of them. -/
theorem positional_eq (d : Scientific) : ∃ whole places : List Char, whole ≠ [] ∧
    (∀ c ∈ whole, c.isDigit = true) ∧ (∀ c ∈ places, c.isDigit = true) ∧
    ((places = [] ∧ d.positional = whole ∧ 0 ≤ d.exponent ∧
        ofDigits whole = d.digits * 10 ^ d.exponent.toNat) ∨
      places ≠ [] ∧ d.positional = whole ++ '.' :: places ∧
        ofDigits (whole ++ places) = d.digits ∧ d.exponent = -(places.length : Int)) := by
  have digits : ∀ c ∈ Nat.toDigits 10 d.digits, c.isDigit = true := fun c =>
    Nat.isDigit_of_mem_toDigits (by decide) (by decide)
  have zeros : ∀ count, ∀ c ∈ List.replicate count '0', c.isDigit = true := fun count c listed => by
    rw [List.eq_of_mem_replicate listed]
    rfl
  by_cases integral : 0 ≤ d.exponent
  · refine ⟨Nat.toDigits 10 d.digits ++ List.replicate d.exponent.toNat '0', [], by simp,
      fun c listed => ?_, fun c none => absurd none List.not_mem_nil, .inl ⟨rfl, ?_, integral, ?_⟩⟩
    · exact (List.mem_append.mp listed).elim (digits c) (zeros _ c)
    · unfold positional
      exact if_pos integral
    · rw [ofDigits_append_zeros, ofDigits_toDigits]
  · have split := List.take_append_drop (d.padded.length - d.exponent.natAbs) d.padded
    have all : ∀ c ∈ d.padded, c.isDigit = true := fun c listed =>
      (List.mem_append.mp listed).elim (zeros _ c) (digits c)
    have long : d.exponent.natAbs + 1 ≤ d.padded.length := by
      rw [padded, List.length_append, List.length_replicate]
      omega
    have length : (d.padded.drop (d.padded.length - d.exponent.natAbs)).length = d.exponent.natAbs := by
      rw [List.length_drop]
      omega
    refine ⟨d.padded.take (d.padded.length - d.exponent.natAbs),
      d.padded.drop (d.padded.length - d.exponent.natAbs), fun none => ?_,
      fun c listed => all c (List.mem_of_mem_take listed),
      fun c listed => all c (List.mem_of_mem_drop listed), .inr ⟨fun none => ?_, ?_, ?_, ?_⟩⟩
    · have short := congrArg List.length none
      rw [List.length_take, List.length_nil] at short
      omega
    · rw [none, List.length_nil] at length
      omega
    · unfold positional
      exact if_neg integral
    · rw [split, padded, ofDigits_zeros_append, ofDigits_toDigits]
    · rw [length]
      omega

/-- The positional text of a decimal is read as a decimal of the same value. -/
theorem readUnsigned?_positional (d : Scientific) :
    ∃ d', readUnsigned? d.positional = some d' ∧ d.SameValue d' := by
  obtain ⟨whole, places, some', first, second, cases⟩ := d.positional_eq
  rcases cases with ⟨rfl, written, integral, value⟩ | ⟨_, written, value, exponent⟩
  · refine ⟨⟨ofDigits whole, 0⟩, by rw [written, readUnsigned?_integer some' first], ?_⟩
    have none : (-d.exponent).toNat = 0 := by omega
    show d.digits * 10 ^ d.exponent.toNat * 10 ^ (-(0 : Int)).toNat =
      ofDigits whole * 10 ^ (0 : Int).toNat * 10 ^ (-d.exponent).toNat
    rw [value, none, Int.neg_zero, Int.toNat_zero, Nat.pow_zero, Nat.mul_one, Nat.mul_one]
  · refine ⟨⟨ofDigits (whole ++ places), -(places.length : Int)⟩, ?_, ?_⟩
    · rw [written, readUnsigned?_decimal (List.append_ne_nil_of_left_ne_nil some' places) first second]
    · rw [value, ← exponent]
      exact .refl d

/-- A positional text is made of digits and points, and a digit stands at either end. -/
theorem positional_spec (d : Scientific) : (∀ c ∈ d.positional, c.isDigit = true ∨ c = '.') ∧
    (∃ c ∈ d.positional.head?, c.isDigit = true) ∧ ∃ c ∈ d.positional.getLast?, c.isDigit = true := by
  obtain ⟨whole, places, some', first, second, cases⟩ := d.positional_eq
  obtain ⟨c, tail, rfl⟩ := List.exists_cons_of_ne_nil some'
  have digit := first c List.mem_cons_self
  rcases cases with ⟨rfl, written, _⟩ | ⟨more, written, _⟩
  · rw [written]
    exact ⟨fun c listed => .inl (first c listed), ⟨c, rfl, digit⟩,
      ⟨_, List.getLast?_eq_some_getLast some', first _ (List.getLast_mem some')⟩⟩
  · rw [written]
    refine ⟨fun d listed => ?_, ⟨c, rfl, digit⟩, places.getLast more, ?_, second _ (List.getLast_mem more)⟩
    · rcases List.mem_append.mp listed with before | behind
      · exact .inl (first d before)
      · exact (List.mem_cons.mp behind).elim .inr fun within => .inl (second d within)
    · rw [List.getLast?_append, List.getLast?_cons, List.getLast?_eq_some_getLast more]
      rfl

end Scientific

/-! ### Numbers -/

/-- A text that starts with a digit is read without a sign. -/
theorem read?_of_readUnsigned? {text : List Char} {d : Scientific}
    (start : ∃ c ∈ text.head?, c.isDigit = true) (found : readUnsigned? text = some d) :
    read? text = some ⟨nearest d.digits d.exponent⟩ := by
  obtain ⟨c, first, digit⟩ := start
  have notPlus : ∀ rest, text ≠ '+' :: rest := by
    rintro rest rfl
    obtain rfl := Option.some.inj first
    contradiction
  have notMinus : ∀ rest, text ≠ '-' :: rest := by
    rintro rest rfl
    obtain rfl := Option.some.inj first
    contradiction
  unfold read?
  split
  rename_i negative rest signed
  split at signed
  · exact absurd rfl (notPlus _)
  · exact absurd rfl (notMinus _)
  · obtain ⟨rfl, rfl⟩ := Prod.mk.inj signed
    rw [found]
    rfl

variable {x : Number}

/-- A number has no sign if its bits are below the sign bit. -/
theorem isNegative_eq_false_iff : x.isNegative = false ↔ x.bits.toNat < 2 ^ 63 := by
  have shifted : (x.bits >>> 63).toNat = x.bits.toNat / 2 ^ 63 := by
    rw [UInt64.toNat_shiftRight]
    exact Nat.shiftRight_eq_div_pow _ _
  have bound := x.bits.toNat_lt
  unfold Number.isNegative
  rw [beq_eq_false_iff_ne, Ne, ← UInt64.toNat_inj, shifted]
  show ¬x.bits.toNat / 2 ^ 63 = 1 ↔ _
  omega

/-- The magnitude of a number without a sign has its bits. -/
theorem toNat_magnitude (small : x.bits.toNat < 2 ^ 63) : x.magnitude.bits.toNat = x.bits.toNat := by
  show (x.bits &&& 0x7fffffffffffffff).toNat = _
  rw [UInt64.toNat_and, show UInt64.toNat 0x7fffffffffffffff = 2 ^ 63 - 1 from rfl,
    Nat.and_two_pow_sub_one_eq_mod, Nat.mod_eq_of_lt small]

/-- The bits of a finite number without a sign are below those of infinity. -/
theorem toNat_bits_lt (finite : x.isFinite = true) (unsigned : x.isNegative = false) :
    x.bits.toNat < Exact.endBits := by
  have less : x.magnitude.bits < Number.infinity.bits := of_decide_eq_true finite
  have inRange : x.magnitude.bits.toNat < Exact.endBits := UInt64.lt_iff_toNat_lt.mp less
  rwa [toNat_magnitude (isNegative_eq_false_iff.mp unsigned)] at inRange

/-- The text of a finite number without a sign is a zero or the fewest digits that name it. -/
theorem toList_text (finite : x.isFinite = true) (unsigned : x.isNegative = false) :
    (text x).toList = if (Exact.ofBits x.bits).mantissa = 0 then ['0']
      else (Exact.ofBits x.bits).shortest.positional := by
  have less : x.magnitude.bits < Number.infinity.bits := of_decide_eq_true finite
  have defined : x.isUndefined = false := decide_eq_false (UInt64.lt_asymm less)
  have bounded : x.isInfinite = false := by
    refine beq_eq_false_iff_ne.mpr fun same => ?_
    rw [same] at less
    exact UInt64.lt_irrefl _ less
  unfold text
  simp only [defined, unsigned, bounded, Bool.false_eq_true, if_false]
  split
  · rfl
  · simp

/-- The text of a finite number without a sign is made of digits and points, with a digit at either
end. -/
theorem text_spec (finite : x.isFinite = true) (unsigned : x.isNegative = false) :
    (∀ c ∈ (text x).toList, c.isDigit = true ∨ c = '.') ∧
      (∃ c ∈ (text x).toList.head?, c.isDigit = true) ∧
        ∃ c ∈ (text x).toList.getLast?, c.isDigit = true := by
  rw [toList_text finite unsigned]
  split
  · exact ⟨by simp, ⟨'0', rfl, rfl⟩, ⟨'0', rfl, rfl⟩⟩
  · exact Scientific.positional_spec _

/-- A finite number without a sign is read from its text. -/
theorem read?_text (finite : x.isFinite = true) (unsigned : x.isNegative = false) :
    read? (text x).toList = some x := by
  have small := toNat_bits_lt finite unsigned
  obtain ⟨shift, placed, bits⟩ := Exact.placed_ofBits small
  rw [toList_text finite unsigned]
  split
  · rename_i zero
    have lowest : shift = 0 := by
      by_contra later
      have full := placed.full (Nat.pos_of_ne_zero later)
      omega
    have none : x.bits = 0 := UInt64.toNat_inj.mp (by rw [← bits, zero, lowest]; rfl)
    have found : readUnsigned? ['0'] = some ⟨0, 0⟩ := rfl
    rw [read?_of_readUnsigned? ⟨'0', rfl, rfl⟩ found]
    exact congrArg (fun bits => some (Number.mk bits)) none.symm
  · rename_i nonzero
    have positive := Nat.pos_of_ne_zero nonzero
    obtain ⟨d, found, same⟩ := (Exact.ofBits x.bits).shortest.readUnsigned?_positional
    have back := placed.readsBack_shortest positive
    rw [same.readsBack] at back
    rw [read?_of_readUnsigned? (Scientific.positional_spec _).2.1 found,
      placed.nearest_eq positive (bits ▸ small) back, bits, UInt64.ofNat_toNat]

/-! ### Numbers that are read -/

/-- A number that a text without a sign in front can write: it is not negative, and of the undefined
numbers it is the one that is read. -/
structure Unsigned (x : Number) : Prop where
  sign : x.isNegative = false
  undefined : x.isUndefined = true → x = .undefined

/-- Bits up to those of infinity are those of a number without a sign. -/
theorem unsigned_of_le (atMost : x.bits.toNat ≤ Exact.endBits) : Unsigned x := by
  have small : x.bits.toNat < 2 ^ 63 := Nat.lt_of_le_of_lt atMost (by decide)
  refine ⟨isNegative_eq_false_iff.mpr small, fun undefined => ?_⟩
  have above : Number.infinity.bits.toNat < x.magnitude.bits.toNat :=
    UInt64.lt_iff_toNat_lt.mp (of_decide_eq_true undefined)
  rw [toNat_magnitude small] at above
  exact absurd above (Nat.not_lt.mpr atMost)

/-- The nearest double is at most infinite. -/
theorem toNat_nearest_le (digits : Nat) (exponent : Int) :
    (nearest digits exponent).toNat ≤ Exact.endBits := by
  have cut : ∀ numerator denominator, (nearestBits numerator denominator).toNat ≤ Exact.endBits := by
    intro numerator denominator
    unfold nearestBits
    dsimp only
    rw [UInt64.toNat_ofNat']
    exact Nat.le_trans (Nat.mod_le _ _) (Nat.min_le_right _ _)
  unfold nearest
  dsimp only
  split
  · exact Nat.zero_le _
  · split
    · exact Nat.le_refl _
    · exact cut _ _

/-- What is read behind a sign is unsigned. -/
theorem unsigned_of_magnitude {rest : List Char} (found : (match readUnsigned? rest with
      | some number => some (Number.mk (nearest number.digits number.exponent))
      | none =>
        let word := String.ofList (rest.map Char.toLower)
        if word == "inf" || word == "infinity" then some .infinity
        else if word == "nan" then some .undefined
        else none) = some x) : Unsigned x := by
  split at found
  · obtain rfl := Option.some.inj found
    exact unsigned_of_le (toNat_nearest_le _ _)
  · dsimp only at found
    split at found
    · obtain rfl := Option.some.inj found
      exact unsigned_of_le (Nat.le_refl _)
    · split at found
      · obtain rfl := Option.some.inj found
        exact ⟨rfl, fun _ => rfl⟩
      · contradiction

/-- What is read from a text without a sign in front is unsigned. -/
theorem unsigned_of_read? {text : List Char} (plain : ∀ c ∈ text.head?, c ≠ '+' ∧ c ≠ '-')
    (found : read? text = some x) : Unsigned x := by
  unfold read? at found
  split at found
  rename_i negative rest signed
  split at signed
  · exact absurd rfl (plain '+' rfl).1
  · exact absurd rfl (plain '-' rfl).2
  · obtain ⟨rfl, rfl⟩ := Prod.mk.inj signed
    obtain ⟨y, read, rfl⟩ := Option.map_eq_some_iff.mp found
    exact unsigned_of_magnitude read

/-- An unsigned number is finite, or it is the infinite or the undefined one. -/
theorem Unsigned.cases (unsigned : Unsigned x) :
    x.isFinite = true ∨ x = .infinity ∨ x = .undefined := by
  have kept := toNat_magnitude (isNegative_eq_false_iff.mp unsigned.sign)
  rcases Nat.lt_trichotomy x.magnitude.bits.toNat Number.infinity.bits.toNat with below | same | above
  · exact .inl (decide_eq_true (UInt64.lt_iff_toNat_lt.mpr below))
  · have bits : x.bits = Number.infinity.bits := UInt64.toNat_inj.mp (kept.symm.trans same)
    exact .inr (.inl (congrArg Number.mk bits))
  · exact .inr (.inr (unsigned.undefined (decide_eq_true (UInt64.lt_iff_toNat_lt.mpr above))))

/-! ### Texts that are no numbers -/

/-- A character that the digits, the point or the exponent of a number use. -/
def isNumberChar (c : Char) : Bool :=
  c.isDigit || c == '.' || c == 'e' || c == 'E' || c == '+' || c == '-'

/-- An exponent is a sign and digits. -/
theorem isNumberChar_of_readExponent? {text : List Char} {exponent : Int}
    (found : readExponent? text = some exponent) : ∀ c ∈ text, isNumberChar c = true := by
  have digits : ∀ {text : List Char} {exponent' : Int},
      (if text.isEmpty || !text.all Char.isDigit then none else some exponent') = some exponent →
        ∀ c ∈ text, isNumberChar c = true := by
    intro text exponent' found c listed
    by_cases some' : (text.isEmpty || !text.all Char.isDigit) = true
    · rw [if_pos some'] at found
      contradiction
    · simp only [Bool.or_eq_true, Bool.not_eq_true', not_or, Bool.not_eq_false] at some'
      have digit := List.all_eq_true.mp some'.2 c listed
      simp [isNumberChar, digit]
  unfold readExponent? at found
  dsimp only at found
  split at found
  · exact List.forall_mem_cons.mpr ⟨rfl, digits found⟩
  · exact List.forall_mem_cons.mpr ⟨rfl, digits found⟩
  · exact digits found

/-- Digits start a text of digits. -/
theorem isDigit_of_mem_takeWhile {text : List Char} {c : Char}
    (listed : c ∈ text.takeWhile Char.isDigit) : c.isDigit = true :=
  List.all_eq_true.mp List.all_takeWhile c listed

/-- What is read behind the digits of a number has only characters of numbers. -/
theorem isNumberChar_of_scaled {digits rest : List Char} {number d : Scientific}
    (found : (if digits.isEmpty then none
      else match rest with
        | [] => some number
        | mark :: rest =>
          if mark == 'e' || mark == 'E' then
            (readExponent? rest).map fun exponent => { number with exponent := number.exponent + exponent }
          else none) = some d) : digits ≠ [] ∧ ∀ c ∈ rest, isNumberChar c = true := by
  split at found
  · contradiction
  · rename_i some'
    refine ⟨fun none => some' (by rw [none]; rfl), ?_⟩
    cases rest with
    | nil => exact fun c none => absurd none List.not_mem_nil
    | cons mark rest =>
      dsimp only at found
      split at found
      · rename_i exponent
        obtain ⟨_, read, _⟩ := Option.map_eq_some_iff.mp found
        refine List.forall_mem_cons.mpr ⟨?_, isNumberChar_of_readExponent? read⟩
        rcases Bool.or_eq_true_iff.mp exponent with small | capital
        · rw [beq_iff_eq.mp small]
          rfl
        · rw [beq_iff_eq.mp capital]
          rfl
      · contradiction

/-- A number without a sign starts with a digit or a point and has only characters of numbers. -/
theorem spec_of_readUnsigned? {text : List Char} {d : Scientific} (found : readUnsigned? text = some d) :
    (∀ c ∈ text, isNumberChar c = true) ∧ ∃ c ∈ text.head?, c.isDigit = true ∨ c = '.' := by
  have digits : ∀ text : List Char, ∀ c ∈ text.takeWhile Char.isDigit, isNumberChar c = true := by
    intro text c listed
    simp [isNumberChar, isDigit_of_mem_takeWhile listed]
  have parts := List.takeWhile_append_dropWhile (p := Char.isDigit) (l := text)
  have start : text.takeWhile Char.isDigit ≠ [] → ∃ c ∈ text.head?, c.isDigit = true ∨ c = '.' := by
    intro some'
    obtain ⟨c, tail, whole⟩ := List.exists_cons_of_ne_nil some'
    refine ⟨c, by rw [← parts, whole]; rfl, .inl ?_⟩
    exact isDigit_of_mem_takeWhile (whole ▸ List.mem_cons_self : c ∈ text.takeWhile Char.isDigit)
  unfold readUnsigned? at found
  dsimp only at found
  split at found
  · rename_i places point
    obtain ⟨_, tail⟩ := isNumberChar_of_scaled found
    rw [point] at parts
    refine ⟨?_, ?_⟩
    · rw [← parts]
      refine List.forall_mem_append.mpr ⟨digits text, List.forall_mem_cons.mpr ⟨rfl, ?_⟩⟩
      rw [← List.takeWhile_append_dropWhile (p := Char.isDigit) (l := places)]
      exact List.forall_mem_append.mpr ⟨digits places, tail⟩
    · by_cases none : text.takeWhile Char.isDigit = []
      · exact ⟨'.', by rw [← parts, none]; rfl, .inr rfl⟩
      · exact start none
  · obtain ⟨some', tail⟩ := isNumberChar_of_scaled found
    rw [List.append_nil] at some'
    refine ⟨?_, start some'⟩
    rw [← parts]
    exact List.forall_mem_append.mpr ⟨digits text, tail⟩

/-- A text is no number if it has no sign in front and is none without a sign, and a character of it
is no letter. -/
theorem read?_eq_none {text : List Char} (unsigned : ∀ c ∈ text.head?, c ≠ '+' ∧ c ≠ '-')
    (none' : readUnsigned? text = none) {c : Char} (listed : c ∈ text) (other : c.isAlpha = false) :
    read? text = none := by
  have small : c ∈ text.map Char.toLower :=
    List.mem_map.mpr ⟨c, listed, (Text.toUpper_of_not_isAlpha other).2⟩
  have noWord : ∀ word : String, word.toList.all Char.isAlpha = true →
      (String.ofList (text.map Char.toLower) == word) = false := by
    intro word letters
    refine beq_eq_false_iff_ne.mpr ?_
    rintro rfl
    rw [String.toList_ofList, List.all_eq_true] at letters
    rw [letters c small] at other
    contradiction
  have infinite := noWord "inf" (by decide)
  have infinite' := noWord "infinity" (by decide)
  have undefined := noWord "nan" (by decide)
  unfold read?
  split
  rename_i negative rest signed
  split at signed
  · exact absurd rfl (unsigned '+' rfl).1
  · exact absurd rfl (unsigned '-' rfl).2
  · obtain ⟨rfl, rfl⟩ := Prod.mk.inj signed
    simp only [none', infinite, infinite', undefined, Bool.or_false, Bool.false_eq_true, if_false,
      Option.map_none]

end Spreadsheet.Decimal
