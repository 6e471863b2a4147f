import Mathlib.Data.Rat.Floor
import Mathlib.Tactic.Linarith
import Spreadsheet.Serial

/-!
# Serial numbers that are read back

A moment is written as its day and a fraction, and read by cutting the number towards zero. For days
from 31 December 1899 on that takes the same number apart again. Before them a fraction leads towards
zero, away from its day, so the time of day survives, but on the day behind. The numbers here are the
exact rational ones, where no rounding blurs what the rule does.
-/
namespace Spreadsheet

namespace SerialNumber

variable {whole : Int} {fraction : ℚ}

/-- Nothing is cut off a whole number. -/
theorem truncate_intCast (n : Int) : truncate (n : ℚ) = n := by
  show Int.tdiv (n : ℚ).num (n : ℚ).den = n
  rw [Rat.num_intCast, Rat.den_intCast, Nat.cast_one, Int.tdiv_one]

/-- Numbers on both sides of zero are cut alike. -/
theorem truncate_neg (q : ℚ) : truncate (-q) = -truncate q := by
  show Int.tdiv (-q).num (-q).den = -Int.tdiv q.num q.den
  rw [Rat.num_neg_eq_neg_num, Rat.den_neg_eq_den, Int.neg_tdiv]

/-- A fraction that leads away from zero is cut off. -/
theorem truncate_add_of_nonneg (positive : 0 ≤ whole) (forward : 0 ≤ fraction) (less : fraction < 1) :
    truncate ((whole : ℚ) + fraction) = whole := by
  have above : (0 : ℚ) ≤ whole := Int.cast_nonneg positive
  show Int.tdiv ((whole : ℚ) + fraction).num ((whole : ℚ) + fraction).den = whole
  rw [Int.tdiv_eq_ediv_of_nonneg (Rat.num_nonneg.mpr (add_nonneg above forward)), ← Rat.floor_def',
    Int.floor_eq_iff]
  constructor <;> linarith

/-- A fraction that leads away from zero is cut off below zero, too. -/
theorem truncate_add_of_nonpos (negative : whole ≤ 0) (backward : fraction ≤ 0) (less : -1 < fraction) :
    truncate ((whole : ℚ) + fraction) = whole := by
  have mirrored : truncate (((-whole : Int) : ℚ) + -fraction) = -whole :=
    truncate_add_of_nonneg (Int.neg_nonneg_of_nonpos negative) (neg_nonneg.mpr backward) (by linarith)
  have opposite : (whole : ℚ) + fraction = -(((-whole : Int) : ℚ) + -fraction) := by
    push_cast
    ring
  rw [opposite, truncate_neg, mirrored, Int.neg_neg]

/-- A whole number is the nearest to itself. -/
theorem round_intCast (n : Int) : round (n : ℚ) = n := by
  show (if (n : ℚ) < 0 then -⌊(1 / 2 - n : ℚ)⌋ else ⌊(n + 1 / 2 : ℚ)⌋) = n
  have half : ⌊(1 / 2 : ℚ)⌋ = 0 := by norm_num
  split
  · rw [Int.floor_sub_intCast, half]
    omega
  · rw [Int.floor_intCast_add, half, Int.add_zero]

end SerialNumber

namespace Moment

/-- The number of a day tells the day. -/
theorem day_of_serialDay (day : Int) :
    (if serialDay day < phantomDay then serialDay day else serialDay day - 1) = day := by
  unfold serialDay phantomDay
  split <;> split <;> omega

/-- The day before 1 March 1900 has number 59, and that day has 61. -/
example : serialDay (Date.toDay ⟨1900, 2, 28⟩) = 59 ∧ serialDay (Date.toDay ⟨1900, 3, 1⟩) = 61 := by
  decide

/-- A number of whole days and of seconds is read as that day and those seconds of a day, if cutting
the number leaves its days. -/
theorem ofSerial?_add_div {whole seconds : Int}
    (cut : SerialNumber.truncate ((whole : ℚ) + seconds / 86400) = whole) :
    ofSerial? ((whole : ℚ) + seconds / 86400) =
      make? (if whole < phantomDay then whole else whole - 1) (seconds % 86400).toNat := by
  have time : ((whole : ℚ) + seconds / 86400 - whole) * (86400 : Int) = seconds := by
    push_cast
    ring
  show make? _ (SerialNumber.round (((whole : ℚ) + seconds / 86400 -
    (SerialNumber.truncate ((whole : ℚ) + seconds / 86400) : Int)) * (86400 : Int)) % 86400).toNat = _
  rw [cut, time, SerialNumber.round_intCast]

/-- A moment is made again from its day and its second. -/
theorem make?_self (m : Moment) : make? m.day m.second = some m :=
  dif_pos ⟨m.first_le, m.le_last, m.second_lt⟩

/-- The number of a moment, its day and its seconds apart. -/
theorem toSerial_eq (m : Moment) :
    (m.toSerial : ℚ) = (serialDay m.day : ℚ) + (m.second : Int) / 86400 := rfl

/-- The seconds of a moment are less than a day. -/
theorem second_div_lt (m : Moment) : ((m.second : Int) : ℚ) / 86400 < 1 := by
  rw [div_lt_one (by norm_num)]
  exact_mod_cast m.second_lt

/-- The number of a moment is read as that moment if its time of day leads away from zero, or if it has
none. -/
theorem ofSerial?_toSerial_of_forward {m : Moment} (forward : 0 ≤ m.day ∨ m.second = 0) :
    ofSerial? (m.toSerial : ℚ) = some m := by
  have late : (0 : ℚ) ≤ ((m.second : Int) : ℚ) / 86400 := by positivity
  have cut : SerialNumber.truncate ((serialDay m.day : ℚ) + (m.second : Int) / 86400) =
      serialDay m.day := by
    rcases forward with behind | midnight
    · have positive : 0 ≤ serialDay m.day := by
        unfold serialDay
        split <;> omega
      exact SerialNumber.truncate_add_of_nonneg positive late m.second_div_lt
    · rw [midnight]
      simpa using SerialNumber.truncate_intCast (serialDay m.day)
  have time : ((m.second : Int) % 86400).toNat = m.second := by
    have bound := m.second_lt
    omega
  rw [toSerial_eq, ofSerial?_add_div cut, day_of_serialDay, time, make?_self]

/-- The number of a moment with a time of day that leads towards zero is read as that time of the next
day. -/
theorem exists_ofSerial?_toSerial_of_backward {m : Moment} (early : m.day < 0) (late : 0 < m.second) :
    ∃ next, ofSerial? (m.toSerial : ℚ) = some next ∧ next.day = m.day + 1 ∧ next.second = m.second := by
  have bound := m.second_lt
  -- Cutting towards zero leaves the next day, and the seconds then count back from its beginning.
  have same : (m.toSerial : ℚ) = ((m.day + 1 : Int) : ℚ) + ((m.second - 86400 : Int) : ℚ) / 86400 := by
    rw [toSerial_eq, serialDay, if_neg (by unfold phantomDay; omega)]
    push_cast
    ring
  have cut : SerialNumber.truncate (((m.day + 1 : Int) : ℚ) + ((m.second - 86400 : Int) : ℚ) / 86400) =
      m.day + 1 := by
    have positive : (0 : ℚ) < m.second := by exact_mod_cast late
    have less : (m.second : ℚ) < 86400 := by exact_mod_cast bound
    apply SerialNumber.truncate_add_of_nonpos (by omega) <;> push_cast <;> linarith
  have time : ((m.second - 86400 : Int) % 86400).toNat = m.second := by omega
  have first : firstDay ≤ m.day + 1 := Int.le_add_one m.first_le
  have last : m.day + 1 ≤ lastDay := by
    have future : 0 ≤ lastDay := by decide
    omega
  let next : Moment := ⟨m.day + 1, m.second, first, last, bound⟩
  refine ⟨next, ?_, rfl, rfl⟩
  rw [same, ofSerial?_add_div cut, time, if_pos (by unfold phantomDay; omega)]
  exact next.make?_self

/-- The serial number of every moment is read, and always with its time of day. It is read as the very
moment exactly if that is not before 31 December 1899 or has no time of day; otherwise as the same time a
day later. -/
theorem exists_ofSerial?_toSerial (m : Moment) :
    ∃ read, ofSerial? (m.toSerial : ℚ) = some read ∧ read.second = m.second ∧
      (read = m ↔ 0 ≤ m.day ∨ m.second = 0) ∧
        read.day = if 0 ≤ m.day ∨ m.second = 0 then m.day else m.day + 1 := by
  by_cases forward : 0 ≤ m.day ∨ m.second = 0
  · exact ⟨m, ofSerial?_toSerial_of_forward forward, rfl, iff_of_true rfl forward, (if_pos forward).symm⟩
  · obtain ⟨early, late⟩ := not_or.mp forward
    obtain ⟨next, found, day, second⟩ :=
      exists_ofSerial?_toSerial_of_backward (Int.not_le.mp early) (Nat.pos_of_ne_zero late)
    have other : next ≠ m := by
      intro same
      rw [same] at day
      omega
    exact ⟨next, found, second, iff_of_false other forward, by rw [if_neg forward, day]⟩

/-- Six in the morning of 30 December 1899 is written -3/4 and read as six in the morning of the next
day. -/
example : (ofSerial? (toSerial ⟨-1, 21600, by decide, by decide, by decide⟩ : ℚ)).map
    (fun read => (read.date, read.clock)) = some (⟨1899, 12, 31⟩, 6, 0, 0) := by decide +kernel

end Moment

end Spreadsheet
