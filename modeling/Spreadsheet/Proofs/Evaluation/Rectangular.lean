import Spreadsheet.Evaluation.Operators

/-!
# Rectangular values

An array is rectangular when its rows have one length, which is not zero, and so is every array
among its entries. Operators on rectangular values have rectangular results.
-/
namespace Spreadsheet

namespace Grid

variable {α β : Type} {grid : Grid α} {rows columns : Nat}

/-- The grid has rows of one length. -/
def Even (grid : Grid α) (width : Nat) : Prop := ∀ row ∈ grid, row.length = width

/-- A built grid has the rows it was built with. -/
@[simp] theorem length_build (rows columns : Nat) (entry : Nat → Nat → α) :
    (build rows columns entry).length = rows := by
  simp [build]

/-- A built grid has rows of one length. -/
theorem even_build (rows columns : Nat) (entry : Nat → Nat → α) :
    (build rows columns entry).Even columns := by
  intro row listed
  obtain ⟨index, _, rfl⟩ := List.mem_map.mp listed
  simp

/-- The entries of a built grid are those it was built from. -/
theorem mem_build {entry : Nat → Nat → α} {row : List α} {a : α}
    (listed : row ∈ build rows columns entry) (member : a ∈ row) :
    ∃ i j, i < rows ∧ j < columns ∧ a = entry i j := by
  obtain ⟨i, below, rfl⟩ := List.mem_map.mp listed
  obtain ⟨j, beside, rfl⟩ := List.mem_map.mp member
  exact ⟨i, j, List.mem_range.mp below, List.mem_range.mp beside, rfl⟩

/-- Changing every entry leaves the lengths of rows. -/
theorem Even.map {width : Nat} (even : grid.Even width) (change : α → β) :
    Grid.Even (List.map (fun row => List.map change row) grid : Grid β) width := by
  intro row listed
  obtain ⟨source, member, rfl⟩ := List.mem_map.mp listed
  rw [List.length_map, even source member]

/-- An entry of a grid is in one of its rows. -/
theorem mem_of_at? {i j : Nat} {a : α} (found : grid.at? i j = some a) :
    ∃ row ∈ grid, a ∈ row := by
  obtain ⟨row, there, entry⟩ := Option.bind_eq_some_iff.mp found
  exact ⟨row, List.mem_of_getElem? there, List.mem_of_getElem? entry⟩

/-- The first entry of a grid is in its first row. -/
theorem mem_of_first? {a : α} (found : grid.first? = some a) : ∃ row ∈ grid, a ∈ row := by
  obtain ⟨row, there, entry⟩ := Option.bind_eq_some_iff.mp found
  exact ⟨row, List.mem_of_mem_head? there, List.mem_of_mem_head? entry⟩

/-- The only entry of a grid is in its only row. -/
theorem eq_of_only? {a : α} (found : grid.only? = some a) : grid = [[a]] := by
  unfold only? at found
  split at found
  · rw [Option.some.inj found]
  · contradiction

/-- The extent of a grid with rows of one length. -/
theorem Even.extent_eq {width : Nat} (even : grid.Even width) (any : grid ≠ []) :
    grid.extent = (grid.length, width) := by
  cases grid with
  | nil => exact absurd rfl any
  | cons row rest => simp [extent, even row List.mem_cons_self]

end Grid

namespace Value

variable {v w : Value} {rows : Grid Value}

/-- The value is no array. -/
def IsSingle (v : Value) : Prop := ∀ rows, v ≠ .array rows

/-- Every array in the value has rows of one length, which is not zero. -/
inductive Rectangular : Value → Prop where
  | single {v : Value} (alone : v.IsSingle) : Rectangular v
  | array {rows : Grid Value} {width : Nat} (wide : 0 < width) (even : rows.Even width)
    (entries : ∀ row ∈ rows, ∀ v ∈ row, Rectangular v) : Rectangular (.array rows)

/-- The empty value is no array. -/
@[simp] theorem isSingle_empty : Value.empty.IsSingle := fun _ same => by contradiction

/-- A number is no array. -/
@[simp] theorem isSingle_number (x : Number) : (Value.number x).IsSingle :=
  fun _ same => by contradiction

/-- An integer is no array. -/
@[simp] theorem isSingle_integer (n : Int) : (Value.integer n).IsSingle :=
  fun _ same => by contradiction

/-- A text is no array. -/
@[simp] theorem isSingle_text (content : String) : (Value.text content).IsSingle :=
  fun _ same => by contradiction

/-- A truth value is no array. -/
@[simp] theorem isSingle_boolean (b : Bool) : (Value.boolean b).IsSingle :=
  fun _ same => by contradiction

/-- An error is no array. -/
@[simp] theorem isSingle_error (e : CellError) : (Value.error e).IsSingle :=
  fun _ same => by contradiction

/-- A value that is no array is rectangular. -/
theorem IsSingle.rectangular (alone : v.IsSingle) : v.Rectangular := .single alone

/-- The rows of a rectangular array. -/
theorem Rectangular.rows_of (shape : (Value.array rows).Rectangular) :
    ∃ width, 0 < width ∧ rows.Even width ∧ ∀ row ∈ rows, ∀ v ∈ row, v.Rectangular := by
  cases shape with
  | single alone => exact absurd rfl (alone rows)
  | array wide even entries => exact ⟨_, wide, even, entries⟩

/-- The entries of a rectangular array are rectangular. -/
theorem Rectangular.entry (shape : (Value.array rows).Rectangular) {row : List Value}
    (listed : row ∈ rows) (member : v ∈ row) : v.Rectangular := by
  obtain ⟨_, _, _, entries⟩ := shape.rows_of
  exact entries row listed v member

/-- A built array is rectangular when its entries are. -/
theorem rectangular_build {rows columns : Nat} {entry : Nat → Nat → Value}
    (wide : 0 < rows → 0 < columns) (entries : ∀ i j, (entry i j).Rectangular) :
    (Value.array (Grid.build rows columns entry)).Rectangular := by
  cases rows with
  | zero => exact .array Nat.one_pos (fun _ none => by contradiction) (fun _ none => by contradiction)
  | succ rows =>
    refine .array (wide (Nat.succ_pos _)) (Grid.even_build _ _ _) ?_
    intro row listed v member
    obtain ⟨i, j, _, _, rfl⟩ := Grid.mem_build listed member
    exact entries i j

/-- Changing every entry of an array keeps it rectangular. -/
theorem Rectangular.map (shape : (Value.array rows).Rectangular) {change : Value → Value}
    (entries : ∀ v, v.Rectangular → (change v).Rectangular) :
    (Value.array (rows.map fun row => row.map change)).Rectangular := by
  obtain ⟨width, wide, even, inner⟩ := shape.rows_of
  refine .array wide (even.map change) ?_
  intro row listed v member
  obtain ⟨source, there, rfl⟩ := List.mem_map.mp listed
  obtain ⟨entry, inside, rfl⟩ := List.mem_map.mp member
  exact entries entry (inner source there entry inside)

/-- The array of one entry. -/
theorem Rectangular.alone (shape : v.Rectangular) : (Value.array [[v]]).Rectangular := by
  refine .array Nat.one_pos (?_ : Grid.Even [[v]] 1) ?_
  · intro row listed
    rw [List.mem_singleton.mp listed]
    rfl
  · intro row listed w member
    rw [List.mem_singleton.mp listed] at member
    rw [List.mem_singleton.mp member]
    exact shape

/-- The single value of a rectangular value is rectangular. -/
theorem Rectangular.single? (shape : v.Rectangular) (found : v.single? = .ok w) :
    w.Rectangular := by
  unfold Value.single? at found
  split at found
  · obtain rfl := Except.ok.inj found
    exact shape.entry List.mem_cons_self List.mem_cons_self
  · obtain rfl := Except.ok.inj found
    exact isSingle_empty.rectangular
  · obtain rfl := Except.ok.inj found
    exact isSingle_empty.rectangular
  · contradiction
  · obtain rfl := Except.ok.inj found
    exact shape

/-- What stands for a rectangular value as a result, its single value if it has one, is rectangular. -/
theorem Rectangular.reduced (shape : v.Rectangular) :
    (match v.single? with
      | .ok w => w
      | .error _ => v).Rectangular := by
  split
  · rename_i w cut
    exact shape.single? cut
  · exact shape

/-! ### Operators -/

/-- The number of a result is no array. -/
theorem isSingle_ofResult (x : Float) : (ofResult x).IsSingle := by
  unfold ofResult
  split
  · exact isSingle_number _
  · exact isSingle_error _

/-- A function of numbers gives no array. -/
theorem isSingle_mapNumber (f : Float → Float) (v : Value) : (mapNumber f v).IsSingle := by
  unfold mapNumber
  split
  · exact isSingle_ofResult _
  · exact isSingle_error _

/-- A function of two numbers gives no array. -/
theorem isSingle_mapNumbers {f : Float → Float → Value} (plain : ∀ x y, (f x y).IsSingle)
    (v w : Value) : (mapNumbers f v w).IsSingle := by
  unfold mapNumbers
  split
  · exact plain _ _
  · exact isSingle_error _
  · exact isSingle_error _

/-- A quotient is no array. -/
theorem isSingle_quotient (x y : Float) : (quotient x y).IsSingle := by
  unfold quotient
  split
  · exact isSingle_error _
  · exact isSingle_ofResult _

/-- A power is no array. -/
theorem isSingle_power (x y : Float) : (power x y).IsSingle := by
  unfold power
  split
  · exact isSingle_error _
  · exact isSingle_ofResult _

/-- Joined texts are no array. -/
theorem isSingle_join (v w : Value) : (join v w).IsSingle := by
  unfold join
  split
  · exact isSingle_text _
  · exact isSingle_error _
  · exact isSingle_error _

/-- A comparison is no array. -/
theorem isSingle_compareBy (holds : Ordering → Bool) (v w : Value) :
    (compareBy holds v w).IsSingle := by
  unfold compareBy
  split
  · exact isSingle_error _
  · exact isSingle_error _
  · exact isSingle_boolean _

/-- A rectangular array with rows has columns. -/
theorem Rectangular.wide (shape : (Value.array rows).Rectangular) (any : 0 < rows.extent.1) :
    0 < rows.extent.2 := by
  obtain ⟨width, wide, even, _⟩ := shape.rows_of
  rw [even.extent_eq (fun none => by simp [none, Grid.extent] at any)]
  exact wide

/-- A common length is positive if one of the dimensions is, and they have to be. -/
theorem commonLength?_pos {m n length : Nat} (common : commonLength? m n = some length) :
    0 < length ↔ 0 < m ∧ 0 < n := by
  unfold commonLength? at common
  split at common
  · obtain rfl := Option.some.inj common
    omega
  · split at common
    · obtain rfl := Option.some.inj common
      omega
    · contradiction

/-- Combining rectangular arrays entry by entry keeps them rectangular. -/
theorem rectangular_combine {f : Value → Value → Value} (plain : ∀ v w, (f v w).IsSingle)
    {left right : Grid Value} (first : (Value.array left).Rectangular)
    (second : (Value.array right).Rectangular) : (combine f left right).Rectangular := by
  unfold combine
  split
  · rename_i height width rows columns
    refine rectangular_build (fun any => ?_) fun i j => (plain _ _).rectangular
    obtain ⟨above, below⟩ := (commonLength?_pos rows).mp any
    exact (commonLength?_pos columns).mpr ⟨first.wide above, second.wide below⟩
  · exact (isSingle_error _).rectangular

/-- A function of single values extended to rectangular values. -/
theorem rectangular_lift {f : Value → Value} (plain : ∀ v, (f v).IsSingle) (shape : v.Rectangular) :
    (lift f v).Rectangular := by
  unfold lift
  split
  · exact shape.map fun v _ => (plain v).rectangular
  · exact (plain _).rectangular

/-- A function of two single values extended to rectangular values. -/
theorem rectangular_lift₂ {f : Value → Value → Value} (plain : ∀ v w, (f v w).IsSingle)
    (first : v.Rectangular) (second : w.Rectangular) : (lift₂ f v w).Rectangular := by
  unfold lift₂
  split
  · exact rectangular_combine plain first second
  · exact rectangular_combine plain first second.alone
  · exact rectangular_combine plain first.alone second
  · exact (plain _ _).rectangular

end Value

/-- An operator on a single value gives no array. -/
theorem UnaryOperator.isSingle_applySingle (operator : UnaryOperator) (v : Value) :
    (operator.applySingle v).IsSingle := by
  unfold applySingle
  split
  · exact Value.isSingle_mapNumber _ _
  · exact Value.isSingle_mapNumber _ _
  · exact Value.isSingle_mapNumber _ _
  · exact Value.isSingle_error _

/-- An operator of one operand keeps values rectangular. -/
theorem UnaryOperator.rectangular_apply (operator : UnaryOperator) {v : Value}
    (shape : v.Rectangular) : (operator.apply v).Rectangular :=
  Value.rectangular_lift operator.isSingle_applySingle shape

/-- An operator on single values gives no array. -/
theorem BinaryOperator.isSingle_applySingle? {operator : BinaryOperator}
    {f : Value → Value → Value} (found : operator.applySingle? = some f) (v w : Value) :
    (f v w).IsSingle := by
  cases operator with
  | power =>
    obtain rfl := Option.some.inj found
    exact Value.isSingle_mapNumbers Value.isSingle_power v w
  | times | plus | minus =>
    obtain rfl := Option.some.inj found
    exact Value.isSingle_mapNumbers (fun _ _ => Value.isSingle_ofResult _) v w
  | divide =>
    obtain rfl := Option.some.inj found
    exact Value.isSingle_mapNumbers Value.isSingle_quotient v w
  | join =>
    obtain rfl := Option.some.inj found
    exact Value.isSingle_join v w
  | equal | notEqual | less | greater | atMost | atLeast =>
    obtain rfl := Option.some.inj found
    exact Value.isSingle_compareBy _ v w
  | other symbol => contradiction

/-- An operator of two operands keeps values rectangular. -/
theorem BinaryOperator.rectangular_apply (operator : BinaryOperator) {v w : Value}
    (first : v.Rectangular) (second : w.Rectangular) : (operator.apply v w).Rectangular := by
  unfold apply
  split
  · rename_i f found
    exact Value.rectangular_lift₂ (isSingle_applySingle? found) first second
  · exact (Value.isSingle_error _).rectangular

end Spreadsheet
