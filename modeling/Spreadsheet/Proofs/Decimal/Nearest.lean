import Mathlib.Tactic.Ring
import Mathlib.Tactic.Linarith
import Spreadsheet.Decimal.Text

/-!
# Decimals and the doubles they name

A decimal that lies among the real numbers that round to a double names that double when it is read.
All magnitudes are counted in units of the smallest positive double, as quotients of naturals.
-/
namespace Spreadsheet.Decimal

/-! ### Rounding quotients -/

/-- The integer half a unit or less away from a quotient is the nearest; at half a unit it is even. -/
theorem roundQuotient_eq {n d m : Nat} (positive : 0 < d) (low : 2 * (m * d) ≤ 2 * n + d)
    (high : 2 * n ≤ 2 * (m * d) + d)
    (odd : m % 2 = 1 → 2 * (m * d) < 2 * n + d ∧ 2 * n < 2 * (m * d) + d) :
    roundQuotient n d = m := by
  have split := Nat.div_add_mod' n d
  have small := Nat.mod_lt n positive
  unfold roundQuotient
  dsimp only
  generalize n / d = q at *
  generalize n % d = r at *
  have near : m = q ∨ m = q + 1 := by
    have notAbove : ¬q + 2 ≤ m := fun above => by
      have grows := Nat.mul_le_mul_right d above
      rw [Nat.add_mul] at grows
      omega
    have notBelow : ¬m + 1 ≤ q := fun below => by
      have grows := Nat.mul_le_mul_right d below
      rw [Nat.add_mul] at grows
      omega
    omega
  rcases near with rfl | rfl
  · split_ifs <;> omega
  · rw [Nat.add_mul, Nat.one_mul] at low high odd
    split_ifs <;> omega

/-- The binary digits of a quotient beyond a mantissa. -/
theorem log2_div_sub_eq {units d shift : Nat} (positive : 0 < d)
    (low : 0 < shift → 2 ^ (52 + shift) * d ≤ units) (high : units < 2 ^ (53 + shift) * d) :
    Nat.log2 (units / d) - 52 = shift := by
  have above : units / d < 2 ^ (53 + shift) := (Nat.div_lt_iff_lt_mul positive).mpr high
  by_cases none : units / d = 0
  · have first : ¬0 < shift := fun later => by
      have reached := (Nat.le_div_iff_mul_le positive).mpr (low later)
      rw [none] at reached
      exact absurd reached (Nat.not_le.mpr (Nat.two_pow_pos _))
    rw [none, Nat.log2_zero]
    omega
  · have fits := (Nat.log2_lt none).mpr above
    by_cases first : shift = 0
    · omega
    · have reached := (Nat.le_div_iff_mul_le positive).mpr (low (Nat.pos_of_ne_zero first))
      have fills := (Nat.le_log2 none).mpr reached
      omega

/-! ### Places of doubles -/

namespace Scientific

/-- The numerator of a decimal as a quotient of naturals. -/
def numerator (d : Scientific) : Nat := d.digits * 10 ^ d.exponent.toNat

/-- The denominator of a decimal as a quotient of naturals. -/
def denominator (d : Scientific) : Nat := 10 ^ (-d.exponent).toNat

variable (d d' : Scientific)

/-- The denominator is positive. -/
theorem denominator_pos : 0 < d.denominator := Nat.pow_pos (by decide)

/-- The decimals are equal as quotients. -/
def SameValue : Prop := d.numerator * d'.denominator = d'.numerator * d.denominator

/-- Factors that two numbers share do not matter to their order. -/
theorem compare_mul_right {a b k : Nat} (positive : 0 < k) : compare (a * k) (b * k) = compare a b := by
  rw [Nat.compare_eq_ite_lt, Nat.compare_eq_ite_lt]
  simp only [Nat.mul_lt_mul_right positive]

/-- Comparing with a mantissa is comparing in units of the smallest double. -/
theorem compareBinary_eq (factor shift : Nat) : d.compareBinary factor ((shift : Int) - 1074 - 2) =
    compare (4 * (d.numerator * 2 ^ binaryPlaces)) (factor * (2 ^ shift * d.denominator)) := by
  have balance : 2 ^ (-((shift : Int) - 1074 - 2)).toNat * 2 ^ shift =
      2 ^ ((shift : Int) - 1074 - 2).toNat * (2 ^ 2 * 2 ^ binaryPlaces) := by
    have exponents : (-((shift : Int) - 1074 - 2)).toNat + shift =
        ((shift : Int) - 1074 - 2).toNat + 2 + binaryPlaces := by
      have places : binaryPlaces = 1074 := rfl
      omega
    rw [← Nat.pow_add, exponents, Nat.pow_add, Nat.pow_add, Nat.mul_assoc]
  unfold compareBinary
  show compare (d.numerator * 2 ^ (-((shift : Int) - 1074 - 2)).toNat)
    (factor * 2 ^ ((shift : Int) - 1074 - 2).toNat * d.denominator) = _
  have scaled : 0 < 2 ^ shift := Nat.two_pow_pos _
  have some' : 0 < 2 ^ ((shift : Int) - 1074 - 2).toNat := Nat.two_pow_pos _
  -- The powers are large: they stand for themselves from here on.
  generalize 2 ^ (-((shift : Int) - 1074 - 2)).toNat = a at *
  generalize 2 ^ ((shift : Int) - 1074 - 2).toNat = b at *
  generalize 2 ^ shift = c at *
  generalize 2 ^ binaryPlaces = e at *
  calc compare (d.numerator * a) (factor * b * d.denominator)
      = compare (d.numerator * a * c) (factor * b * d.denominator * c) := (compare_mul_right scaled).symm
    _ = compare (4 * (d.numerator * e) * b) (factor * (c * d.denominator) * b) := by
      congr 1
      · rw [Nat.mul_assoc, balance]
        ring
      · ring
    _ = compare (4 * (d.numerator * e)) (factor * (c * d.denominator)) := compare_mul_right some'

variable {d d'}

/-- Decimals of equal value stand alike to every mantissa. -/
theorem SameValue.compareBinary (same : d.SameValue d') (factor : Nat) (power : Int) :
    d.compareBinary factor power = d'.compareBinary factor power := by
  have scaled := d.denominator_pos
  have scaled' := d'.denominator_pos
  unfold SameValue at same
  unfold Scientific.compareBinary
  show compare (d.numerator * 2 ^ (-power).toNat) (factor * 2 ^ power.toNat * d.denominator) =
    compare (d'.numerator * 2 ^ (-power).toNat) (factor * 2 ^ power.toNat * d'.denominator)
  generalize 2 ^ (-power).toNat = a
  generalize factor * 2 ^ power.toNat = b
  calc compare (d.numerator * a) (b * d.denominator)
      = compare (d.numerator * a * d'.denominator) (b * d.denominator * d'.denominator) :=
        (compare_mul_right scaled').symm
    _ = compare (d'.numerator * a * d.denominator) (b * d'.denominator * d.denominator) := by
      rw [Nat.mul_right_comm, same, Nat.mul_right_comm b, Nat.mul_right_comm d'.numerator]
    _ = compare (d'.numerator * a) (b * d'.denominator) := compare_mul_right scaled

end Scientific

namespace Exact

/-- The least bits of an infinite number. -/
def endBits : Nat := 0x7ff0000000000000

/-- A magnitude is that of a double whose mantissa stands so many binary digits above the smallest
place. -/
structure Placed (x : Exact) (shift : Nat) : Prop where
  exponent : x.exponent = (shift : Int) - 1074
  below : x.mantissa < 2 ^ 53
  full : 0 < shift → 2 ^ 52 ≤ x.mantissa
  narrow : x.narrowBelow = true ↔ 0 < shift ∧ x.mantissa = 2 ^ 52

/-- The bits of a finite double tell its place and its mantissa. -/
theorem placed_ofBits {bits : UInt64} (finite : bits.toNat < endBits) :
    ∃ shift, (ofBits bits).Placed shift ∧ shift * 2 ^ 52 + (ofBits bits).mantissa = bits.toNat := by
  have biased : ((bits >>> 52) &&& 0x7ff).toNat = bits.toNat / 2 ^ 52 := by
    have masked : bits.toNat / 2 ^ 52 % 2 ^ 11 = bits.toNat / 2 ^ 52 :=
      Nat.mod_eq_of_lt (Nat.div_lt_of_lt_mul (by unfold endBits at finite; omega))
    rw [UInt64.toNat_and, UInt64.toNat_shiftRight]
    show bits.toNat >>> 52 &&& (2 ^ 11 - 1) = _
    rw [Nat.and_two_pow_sub_one_eq_mod, Nat.shiftRight_eq_div_pow, masked]
  have fraction : (bits &&& 0xfffffffffffff).toNat = bits.toNat % 2 ^ 52 := by
    rw [UInt64.toNat_and, show UInt64.toNat 0xfffffffffffff = 2 ^ 52 - 1 from rfl,
      Nat.and_two_pow_sub_one_eq_mod]
  have split := Nat.div_add_mod bits.toNat (2 ^ 52)
  have small := Nat.mod_lt bits.toNat (show 0 < 2 ^ 52 from Nat.two_pow_pos 52)
  unfold ofBits
  simp only [biased, fraction, Nat.pow_eq]
  generalize bits.toNat / 2 ^ 52 = exponent at *
  generalize bits.toNat % 2 ^ 52 = rest at *
  by_cases lowest : exponent = 0
  · refine ⟨0, ?_, ?_⟩
    · rw [if_pos lowest]
      refine ⟨rfl, ?_, fun later => absurd later (Nat.lt_irrefl 0), ?_⟩
      · show rest < 2 ^ 53
        omega
      · exact iff_of_false Bool.false_ne_true fun both => Nat.lt_irrefl 0 both.1
    · rw [if_pos lowest, Nat.zero_mul, Nat.zero_add]
      rw [lowest, Nat.mul_zero, Nat.zero_add] at split
      exact split
  · refine ⟨exponent - 1, ?_, ?_⟩
    · rw [if_neg lowest]
      refine ⟨?_, ?_, fun _ => Nat.le_add_right _ _, ?_⟩
      · show (exponent : Int) - 1075 = ((exponent - 1 : Nat) : Int) - 1074
        omega
      · show 2 ^ 52 + rest < 2 ^ 53
        omega
      · show (rest == 0 && decide (1 < exponent)) = true ↔ 0 < exponent - 1 ∧ 2 ^ 52 + rest = 2 ^ 52
        simp only [Bool.and_eq_true, beq_iff_eq, decide_eq_true_eq]
        omega
    · rw [if_neg lowest]
      dsimp only
      omega

/-- The lower end of the reals that round to the double, in quarters of its last binary digit. -/
def lower (x : Exact) : Nat := if x.narrowBelow then 4 * x.mantissa - 1 else 4 * x.mantissa - 2

/-- The quotient lies among the reals that round to a double of the given place. The ends do so only
if the mantissa is even. -/
structure Between (x : Exact) (shift units denominator : Nat) : Prop where
  low : x.lower * (2 ^ shift * denominator) ≤ 4 * units
  high : 4 * units ≤ (4 * x.mantissa + 2) * (2 ^ shift * denominator)
  odd : x.mantissa % 2 = 1 → x.lower * (2 ^ shift * denominator) < 4 * units ∧
    4 * units < (4 * x.mantissa + 2) * (2 ^ shift * denominator)

variable {x : Exact} {shift : Nat} {d : Scientific}

/-- A decimal that reads back lies between the ends. -/
theorem Placed.between (placed : x.Placed shift) (back : x.readsBack d = true) :
    x.Between shift (d.numerator * 2 ^ binaryPlaces) d.denominator := by
  have named : (if x.narrowBelow then 4 * x.mantissa - 1 else 4 * x.mantissa - 2) = x.lower := rfl
  unfold readsBack at back
  simp only [named, placed.exponent, d.compareBinary_eq] at back
  simp only [Bool.and_eq_true, Bool.or_eq_true, beq_iff_eq, Nat.compare_eq_gt, Nat.compare_eq_eq,
    Nat.compare_eq_lt] at back
  obtain ⟨above, below⟩ := back
  refine ⟨above.elim Nat.le_of_lt fun same => Nat.le_of_eq same.2.symm,
    below.elim Nat.le_of_lt fun same => Nat.le_of_eq same.2, fun odd => ?_⟩
  have uneven : ∀ {p : Prop}, ¬(x.mantissa % 2 = 0 ∧ p) := fun both => by
    rw [odd] at both
    exact absurd both.1 (by decide)
  exact ⟨above.resolve_right uneven, below.resolve_right uneven⟩

/-- The lower end is half a digit below, or a quarter below a power of two. -/
theorem Placed.lower_eq (placed : x.Placed shift) : x.lower = 4 * x.mantissa - 2 ∨
    x.lower = 4 * x.mantissa - 1 ∧ 0 < shift ∧ x.mantissa = 2 ^ 52 := by
  unfold lower
  split
  · rename_i narrow
    exact .inr ⟨rfl, placed.narrow.mp narrow⟩
  · exact .inl rfl

/-- A quotient between the ends that has as many digits as the double rounds to its mantissa. -/
theorem Placed.round_of_full (placed : x.Placed shift) {units denominator : Nat}
    (positive : 0 < denominator) (between : x.Between shift units denominator)
    (full : 0 < shift → 2 ^ (52 + shift) * denominator ≤ units) :
    Nat.log2 (units / denominator) - 52 = shift ∧
      roundQuotient units (denominator * 2 ^ shift) = x.mantissa := by
  obtain ⟨low, high, odd⟩ := between
  have below := placed.below
  have scaled : 0 < 2 ^ shift * denominator := Nat.mul_pos (Nat.two_pow_pos shift) positive
  have end' : 2 ^ (53 + shift) * denominator = 2 ^ 53 * (2 ^ shift * denominator) := by
    rw [Nat.pow_add, Nat.mul_assoc]
  rw [Nat.mul_comm denominator]
  generalize 2 ^ shift * denominator = D at *
  have half : (4 * x.mantissa - 2) * D ≤ x.lower * D :=
    Nat.mul_le_mul_right D (by rcases placed.lower_eq with same | same <;> omega)
  have top : (x.mantissa + 1) * D ≤ 2 ^ 53 * D := Nat.mul_le_mul_right D below
  rw [Nat.sub_mul, Nat.mul_assoc] at half
  rw [Nat.add_mul, Nat.mul_assoc] at high odd
  rw [Nat.add_mul] at top
  refine ⟨log2_div_sub_eq positive full ?_, roundQuotient_eq scaled ?_ ?_ fun uneven => ?_⟩
  · rw [end']
    omega
  · omega
  · omega
  · have strict := odd uneven
    omega

/-- A quotient between the ends that has a digit less than the double rounds up to it. -/
theorem Placed.round_of_not_full (placed : x.Placed (shift + 1)) {units denominator : Nat}
    (positive : 0 < denominator) (between : x.Between (shift + 1) units denominator)
    (less : units < 2 ^ (53 + shift) * denominator) :
    Nat.log2 (units / denominator) - 52 = shift ∧
      roundQuotient units (denominator * 2 ^ shift) = 2 ^ 53 ∧ x.mantissa = 2 ^ 52 := by
  obtain ⟨low, high, odd⟩ := between
  have full := placed.full (Nat.succ_pos shift)
  have scaled : 0 < 2 ^ shift * denominator := Nat.mul_pos (Nat.two_pow_pos shift) positive
  have start : 2 ^ (52 + shift) * denominator = 2 ^ 52 * (2 ^ shift * denominator) := by
    rw [Nat.pow_add, Nat.mul_assoc]
  have end' : 2 ^ (53 + shift) * denominator = 2 ^ 53 * (2 ^ shift * denominator) := by
    rw [Nat.pow_add, Nat.mul_assoc]
  have doubled : 2 ^ (shift + 1) * denominator = 2 * (2 ^ shift * denominator) := by
    rw [Nat.pow_succ, Nat.mul_comm _ 2, Nat.mul_assoc]
  rw [doubled] at low high odd
  rw [Nat.mul_comm denominator (2 ^ shift)]
  rw [end'] at less
  generalize 2 ^ shift * denominator = D at *
  have least : x.mantissa = 2 ^ 52 := by
    by_contra other
    have above : (2 ^ 54 + 2) * (2 * D) ≤ x.lower * (2 * D) :=
      Nat.mul_le_mul_right (2 * D) (by rcases placed.lower_eq with same | same <;> omega)
    omega
  have narrow : x.lower = 2 ^ 54 - 1 := by
    unfold lower
    rw [if_pos (placed.narrow.mpr ⟨Nat.succ_pos shift, least⟩)]
    omega
  rw [narrow] at low
  refine ⟨log2_div_sub_eq positive (fun _ => ?_) ?_, roundQuotient_eq scaled ?_ ?_ ?_, least⟩
  · rw [start]
    omega
  · rw [end']
    omega
  · omega
  · omega
  · intro uneven
    exact absurd uneven (by decide)

/-- A quotient between the ends names the double. -/
theorem Placed.nearestBits_eq (placed : x.Placed shift) {numerator denominator : Nat}
    (positive : 0 < denominator) (between : x.Between shift (numerator * 2 ^ binaryPlaces) denominator)
    (finite : shift * 2 ^ 52 + x.mantissa < endBits) :
    nearestBits numerator denominator = .ofNat (shift * 2 ^ 52 + x.mantissa) := by
  have inRange := Nat.min_eq_left (Nat.le_of_lt finite)
  unfold endBits at inRange
  unfold nearestBits
  simp only [Nat.pow_eq]
  generalize numerator * 2 ^ binaryPlaces = units at *
  by_cases full : 0 < shift → 2 ^ (52 + shift) * denominator ≤ units
  · obtain ⟨place, mantissa⟩ := placed.round_of_full positive between full
    rw [place, mantissa, inRange]
  · obtain ⟨later, less⟩ := Classical.not_imp.mp full
    obtain ⟨lower, rfl⟩ := Nat.exists_eq_add_of_lt later
    rw [Nat.zero_add] at *
    rw [Nat.not_le, Nat.add_comm lower, ← Nat.add_assoc] at less
    obtain ⟨place, mantissa, least⟩ := placed.round_of_not_full positive between less
    have carried : lower * 2 ^ 52 + 2 ^ 53 = (lower + 1) * 2 ^ 52 + x.mantissa := by omega
    rw [place, mantissa, carried, inRange]

/-- No power of ten is needed beyond what a double can be. -/
theorem pow_two_lt_pow_ten {binary decimal : Nat} (digits : binary < 3 * decimal) :
    2 ^ binary < 10 ^ decimal :=
  calc 2 ^ binary < 2 ^ (3 * decimal) := Nat.pow_lt_pow_right (by decide) digits
    _ = 8 ^ decimal := Nat.pow_mul 2 3 decimal
    _ ≤ 10 ^ decimal := Nat.pow_le_pow_left (by decide) decimal

/-- A number of that many digits lies between two powers of ten. -/
theorem digitCount_spec (n : Nat) : 0 < digitCount n ∧ n < 10 ^ digitCount n ∧
    (0 < n → 10 ^ (digitCount n - 1) ≤ n) := by
  have some' : 0 < digitCount n := Nat.length_toDigits_pos
  refine ⟨some', (Nat.length_toDigits_le_iff (by decide) some').mp Nat.le.refl, fun positive => ?_⟩
  by_cases single : digitCount n = 1
  · rw [single]
    exact positive
  · by_contra below
    have fewer := (Nat.length_toDigits_le_iff (by decide) (by omega)).mpr (Nat.lt_of_not_le below)
    have same : (Nat.toDigits 10 n).length = digitCount n := rfl
    omega

/-- The lower end of a positive double is positive. -/
theorem Placed.lower_pos (placed : x.Placed shift) (positive : 0 < x.mantissa) : 0 < x.lower := by
  rcases placed.lower_eq with same | same <;> omega

/-- A decimal far below the doubles does not lie between the ends of one. -/
theorem Placed.not_small (placed : x.Placed shift) (positive : 0 < x.mantissa)
    (between : x.Between shift (d.numerator * 2 ^ binaryPlaces) d.denominator) :
    ¬d.exponent + digitCount d.digits < -400 := by
  intro small
  have places : binaryPlaces = 1074 := rfl
  obtain ⟨limit, limited⟩ : ∃ limit : Nat, limit = 400 := ⟨400, rfl⟩
  have few : d.numerator < 10 ^ (digitCount d.digits + d.exponent.toNat) := by
    rw [Nat.pow_add]
    exact Nat.mul_lt_mul_of_pos_right (digitCount_spec d.digits).2.1 (Nat.pow_pos (by decide))
  have apart : digitCount d.digits + d.exponent.toNat + limit ≤ (-d.exponent).toNat := by omega
  have unit : 4 * 2 ^ binaryPlaces < 10 ^ limit := by
    have joined : 4 * 2 ^ binaryPlaces = 2 ^ (2 + binaryPlaces) := by
      rw [Nat.pow_add]
    rw [joined]
    exact pow_two_lt_pow_ten (by omega)
  have wide : d.denominator ≤ x.lower * (2 ^ shift * d.denominator) :=
    Nat.le_trans (Nat.le_mul_of_pos_left _ (Nat.two_pow_pos shift))
      (Nat.le_mul_of_pos_left _ (placed.lower_pos positive))
  refine absurd (Nat.le_trans wide between.low) (Nat.not_le.mpr ?_)
  calc 4 * (d.numerator * 2 ^ binaryPlaces)
      = d.numerator * (4 * 2 ^ binaryPlaces) := Nat.mul_left_comm _ _ _
    _ ≤ 10 ^ (digitCount d.digits + d.exponent.toNat) * (4 * 2 ^ binaryPlaces) :=
      Nat.mul_le_mul_right _ (Nat.le_of_lt few)
    _ < 10 ^ (digitCount d.digits + d.exponent.toNat) * 10 ^ limit :=
      Nat.mul_lt_mul_of_pos_left unit (Nat.pow_pos (by decide))
    _ = 10 ^ (digitCount d.digits + d.exponent.toNat + limit) := (Nat.pow_add _ _ _).symm
    _ ≤ d.denominator := Nat.pow_le_pow_right (by decide) apart

/-- A decimal far above the doubles does not lie between the ends of one. -/
theorem Placed.not_large (placed : x.Placed shift) (nonzero : 0 < d.digits)
    (finite : shift * 2 ^ 52 + x.mantissa < endBits)
    (between : x.Between shift (d.numerator * 2 ^ binaryPlaces) d.denominator) :
    ¬400 < d.exponent + digitCount d.digits := by
  intro large
  obtain ⟨some', _, many⟩ := digitCount_spec d.digits
  have below := placed.below
  have place : shift ≤ 2046 := by
    unfold endBits at finite
    omega
  have places : binaryPlaces = 1074 := rfl
  obtain ⟨limit, limited⟩ : ∃ limit : Nat, limit = 400 := ⟨400, rfl⟩
  obtain ⟨k, reaches, few⟩ : ∃ k, 55 + shift ≤ k + binaryPlaces ∧ k < 3 * limit :=
    ⟨1027, by omega, by omega⟩
  have many' : 10 ^ limit * d.denominator ≤ d.numerator :=
    calc 10 ^ limit * d.denominator
        = 10 ^ (limit + (-d.exponent).toNat) := (Nat.pow_add _ _ _).symm
      _ ≤ 10 ^ (digitCount d.digits - 1 + d.exponent.toNat) :=
        Nat.pow_le_pow_right (by decide) (by omega)
      _ = 10 ^ (digitCount d.digits - 1) * 10 ^ d.exponent.toNat := Nat.pow_add _ _ _
      _ ≤ d.numerator := Nat.mul_le_mul_right _ (many nonzero)
  refine absurd between.high (Nat.not_le.mpr ?_)
  calc (4 * x.mantissa + 2) * (2 ^ shift * d.denominator)
      ≤ 2 ^ 55 * (2 ^ shift * d.denominator) := Nat.mul_le_mul_right _ (by omega)
    _ = 2 ^ (55 + shift) * d.denominator := by rw [Nat.pow_add, Nat.mul_assoc]
    _ ≤ 2 ^ (k + binaryPlaces) * d.denominator :=
      Nat.mul_le_mul_right _ (Nat.pow_le_pow_right (by decide) reaches)
    _ = 2 ^ k * (2 ^ binaryPlaces * d.denominator) := by rw [Nat.pow_add, Nat.mul_assoc]
    _ < 10 ^ limit * (2 ^ binaryPlaces * d.denominator) :=
      Nat.mul_lt_mul_of_pos_right (pow_two_lt_pow_ten few)
        (Nat.mul_pos (Nat.two_pow_pos _) d.denominator_pos)
    _ = 10 ^ limit * d.denominator * 2 ^ binaryPlaces := by
      rw [Nat.mul_comm (2 ^ binaryPlaces), Nat.mul_assoc]
    _ ≤ d.numerator * 2 ^ binaryPlaces := Nat.mul_le_mul_right _ many'
    _ ≤ 4 * (d.numerator * 2 ^ binaryPlaces) := Nat.le_mul_of_pos_left _ (by decide)

/-- A positive double is read from every decimal that reads back as it. -/
theorem Placed.nearest_eq (placed : x.Placed shift) (positive : 0 < x.mantissa)
    (finite : shift * 2 ^ 52 + x.mantissa < endBits) (back : x.readsBack d = true) :
    nearest d.digits d.exponent = .ofNat (shift * 2 ^ 52 + x.mantissa) := by
  have between := placed.between back
  have wide : 0 < x.lower * (2 ^ shift * d.denominator) :=
    Nat.mul_pos (placed.lower_pos positive) (Nat.mul_pos (Nat.two_pow_pos shift) d.denominator_pos)
  have nonzero : d.digits ≠ 0 := by
    intro zero
    have low := between.low
    rw [Scientific.numerator, zero, Nat.zero_mul, Nat.zero_mul] at low
    omega
  have notSmall := placed.not_small positive between
  have notLarge := placed.not_large (Nat.pos_of_ne_zero nonzero) finite between
  unfold nearest
  dsimp only
  rw [if_neg (not_or.mpr ⟨nonzero, notSmall⟩), if_neg notLarge]
  exact placed.nearestBits_eq d.denominator_pos between finite

end Exact

end Spreadsheet.Decimal
