import Spreadsheet.Evaluation.Basic
import Spreadsheet.Proofs.Evaluation.Rectangular
import Spreadsheet.Proofs.Function.Rectangular

/-!
# Operators entry by entry

Where the arrays that operators are applied to have one or a given number of rows, and one or a given
number of columns, the operators agree on the size of what they are given. Such a tree of operators
has the same entries as if it had been evaluated for each place on its own, from the entries of its
leaves there. A single value counts as an array of one entry, and an array of one row or column has
the same entries in all of them.
-/
namespace Spreadsheet

namespace Grid

variable {α β : Type} {grid : Grid α} {rows columns row column : Nat}

/-- The entry at a place of a larger grid: the only row or column stands for all of them. -/
def placed? (grid : Grid α) (row column : Nat) : Option α :=
  grid.at? (if grid.extent.1 = 1 then 0 else row) (if grid.extent.2 = 1 then 0 else column)

/-- The entries of a built grid are at the places they were built for. -/
theorem at?_build {entry : Nat → Nat → α} (below : row < rows) (beside : column < columns) :
    (build rows columns entry).at? row column = some (entry row column) := by
  simp [at?, build, below, beside]

/-- A built grid with rows has the extent it was built with. -/
theorem extent_build (any : 0 < rows) (columns : Nat) (entry : Nat → Nat → α) :
    (build rows columns entry).extent = (rows, columns) := by
  have filled : build rows columns entry ≠ [] := by
    intro none
    have counted := length_build rows columns entry
    rw [none, List.length_nil] at counted
    omega
  rw [(even_build rows columns entry).extent_eq filled, length_build]

/-- Changing every entry keeps the extent. -/
theorem extent_map (grid : Grid α) (change : α → β) :
    extent (List.map (fun row => List.map change row) grid : Grid β) = grid.extent := by
  cases grid with
  | nil => rfl
  | cons row rest => simp [extent]

/-- Changing every entry changes that of each place. -/
theorem placed?_map (grid : Grid α) (change : α → β) (row column : Nat) :
    placed? (List.map (fun row => List.map change row) grid : Grid β) row column =
      (grid.placed? row column).map change := by
  unfold placed?
  rw [extent_map]
  simp only [at?, List.getElem?_map]
  cases grid[if grid.extent.1 = 1 then 0 else row]? with
  | none => rfl
  | some entries => simp

/-- A place of a smaller grid does not change when it is cut to a grid around that one. -/
theorem placed?_cut (grid : Grid α) {height width : Nat} (rows : height = 1 → grid.extent.1 = 1)
    (columns : width = 1 → grid.extent.2 = 1) (row column : Nat) :
    grid.placed? (if height = 1 then 0 else row) (if width = 1 then 0 else column) =
      grid.placed? row column := by
  have first : (if grid.extent.1 = 1 then 0 else if height = 1 then 0 else row) =
      if grid.extent.1 = 1 then 0 else row := by
    split
    · rfl
    · rename_i several
      rw [if_neg fun one => several (rows one)]
  have second : (if grid.extent.2 = 1 then 0 else if width = 1 then 0 else column) =
      if grid.extent.2 = 1 then 0 else column := by
    split
    · rfl
    · rename_i several
      rw [if_neg fun one => several (columns one)]
  rw [placed?, first, second, placed?]

/-- Single values in rows of one length, not without entries: one row or a given number of rows, and
one column or a given number of columns. -/
structure Tabular (rows columns : Nat) (grid : Grid Value) : Prop where
  tall : 0 < grid.extent.1
  wide : 0 < grid.extent.2
  height : grid.extent.1 = 1 ∨ grid.extent.1 = rows
  width : grid.extent.2 = 1 ∨ grid.extent.2 = columns
  even : grid.Even grid.extent.2
  entries : ∀ row ∈ grid, ∀ v ∈ row, v.IsSingle

end Grid

namespace Grid.Tabular

variable {grid : Grid Value} {rows columns row column : Nat} {v : Value}

/-- A table has a single value in each row and column. -/
theorem exists_at? (table : grid.Tabular rows columns) (below : row < grid.extent.1)
    (beside : column < grid.extent.2) : ∃ v, grid.at? row column = some v ∧ v.IsSingle := by
  have listed : row < grid.length := below
  have there : grid[row] ∈ grid := List.getElem_mem listed
  have long : column < grid[row].length := by rwa [table.even _ there]
  refine ⟨grid[row][column], ?_, table.entries _ there _ (List.getElem_mem long)⟩
  rw [at?, List.getElem?_eq_getElem listed, Option.bind_some, List.getElem?_eq_getElem long]

/-- A table has a single value at each place. -/
theorem exists_placed? (table : grid.Tabular rows columns) (below : row < max 1 rows)
    (beside : column < max 1 columns) : ∃ v, grid.placed? row column = some v ∧ v.IsSingle := by
  have tall := table.tall
  have wide := table.wide
  have height := table.height
  have width := table.width
  apply table.exists_at?
  · split <;> omega
  · split <;> omega

/-- What a table has at a place is a single value. -/
theorem isSingle_of_placed? (table : grid.Tabular rows columns) (found : grid.placed? row column = some v) :
    v.IsSingle := by
  obtain ⟨entries, listed, member⟩ := mem_of_at? found
  exact table.entries entries listed v member

/-- Changing every entry to a single value makes a table again. -/
theorem map (table : grid.Tabular rows columns) {change : Value → Value}
    (plain : ∀ v, (change v).IsSingle) :
    Tabular rows columns (List.map (fun row => List.map change row) grid) where
  tall := by rw [extent_map]; exact table.tall
  wide := by rw [extent_map]; exact table.wide
  height := by rw [extent_map]; exact table.height
  width := by rw [extent_map]; exact table.width
  even := by rw [extent_map]; exact table.even.map change
  entries := by
    intro row listed v member
    obtain ⟨source, _, rfl⟩ := List.mem_map.mp listed
    obtain ⟨entry, _, rfl⟩ := List.mem_map.mp member
    exact plain entry

/-- A grid built from single values is a table if its extent is that of one. -/
theorem build {entry : Nat → Nat → Value} {height width : Nat} (tall : 0 < height) (wide : 0 < width)
    (rows' : height = 1 ∨ height = rows) (columns' : width = 1 ∨ width = columns)
    (plain : ∀ row column, (entry row column).IsSingle) :
    Tabular rows columns (Grid.build height width entry) where
  tall := by rwa [extent_build tall]
  wide := by rwa [extent_build tall]
  height := by rwa [extent_build tall]
  width := by rwa [extent_build tall]
  even := by rw [extent_build tall]; exact even_build height width entry
  entries := by
    intro row listed v member
    obtain ⟨i, j, _, _, rfl⟩ := mem_build listed member
    exact plain i j

end Grid.Tabular

namespace Value

variable {v w : Value} {left right : Grid Value} {rows columns : Nat}

/-- The entries of a value, which is its own if it is no array. -/
def grid : Value → Grid Value
  | .array rows => rows
  | v => [[v]]

/-- The extent of a value is that of its entries. -/
theorem extent_grid (v : Value) : v.grid.extent = v.extent := by
  cases v <;> rfl

/-- A value that is no array is its only entry. -/
theorem grid_of_isSingle (alone : v.IsSingle) : v.grid = [[v]] := by
  cases v with
  | array rows => exact absurd rfl (alone rows)
  | _ => rfl

/-- A value that is no array is a table of one entry. -/
theorem IsSingle.tabular (alone : v.IsSingle) : v.grid.Tabular rows columns := by
  rw [grid_of_isSingle alone]
  refine ⟨Nat.one_pos, Nat.one_pos, .inl rfl, .inl rfl, ?_, ?_⟩
  · intro row listed
    rw [List.mem_singleton.mp listed]
    rfl
  · intro row listed entry member
    rw [List.mem_singleton.mp listed] at member
    rwa [List.mem_singleton.mp member]

/-- A value that is no array is its own entry at every place. -/
theorem IsSingle.placed? (alone : v.IsSingle) (row column : Nat) :
    v.grid.placed? row column = some v := by
  rw [grid_of_isSingle alone]
  rfl

/-! ### One operator -/

/-- An entry of an array that is repeated is that of a place. -/
theorem stretched_eq (rows : Grid Value) (row column : Nat) :
    stretched rows row column = (rows.placed? row column).getD .empty := rfl

/-- The entries of a function extended to arrays are its values for the entries. -/
theorem grid_lift {f : Value → Value} (plain : ∀ v, (f v).IsSingle) (v : Value) :
    (lift f v).grid = v.grid.map fun row => row.map f := by
  cases v with
  | array rows => rfl
  | _ => exact grid_of_isSingle (plain _)

/-- A function of two values extended to arrays combines their entries. -/
theorem grid_lift₂ {f : Value → Value → Value} (plain : ∀ v w, (f v w).IsSingle) (v w : Value) :
    (lift₂ f v w).grid = (combine f v.grid w.grid).grid := by
  cases v with
  | array rows => cases w <;> rfl
  | _ =>
    cases w with
    | array rows => rfl
    | _ => exact grid_of_isSingle (plain _ _)

/-- Two dimensions that are one or a given length have a common length, which is one only if both of
them are. -/
theorem exists_commonLength? {m n length : Nat} (first : m = 1 ∨ m = length)
    (second : n = 1 ∨ n = length) :
    ∃ common, commonLength? m n = some common ∧ (common = 1 ∨ common = length) ∧
      (common = 1 → m = 1 ∧ n = 1) := by
  unfold commonLength?
  by_cases same : m = n ∨ n = 1
  · rw [if_pos same]
    exact ⟨m, rfl, first, fun one => by omega⟩
  · have one : m = 1 := by omega
    rw [if_neg same, if_pos one]
    exact ⟨n, rfl, second, fun one => by omega⟩

/-- Tables have a common size. -/
theorem isSome_commonLength? (first : left.Tabular rows columns) (second : right.Tabular rows columns) :
    (commonLength? left.extent.1 right.extent.1).isSome ∧
      (commonLength? left.extent.2 right.extent.2).isSome := by
  obtain ⟨height, rows', _⟩ := exists_commonLength? first.height second.height
  obtain ⟨width, columns', _⟩ := exists_commonLength? first.width second.width
  rw [rows', columns']
  exact ⟨rfl, rfl⟩

/-- Tables are combined to a table, place by place. -/
theorem placed?_combine {f : Value → Value → Value} (plain : ∀ v w, (f v w).IsSingle)
    (first : left.Tabular rows columns) (second : right.Tabular rows columns) :
    (combine f left right).grid.Tabular rows columns ∧
      ∀ row column, row < max 1 rows → column < max 1 columns →
        (combine f left right).grid.placed? row column =
          some (f (stretched left row column) (stretched right row column)) := by
  obtain ⟨height, rows', heights, single⟩ := exists_commonLength? first.height second.height
  obtain ⟨width, columns', widths, single'⟩ := exists_commonLength? first.width second.width
  have tall : 0 < height := (commonLength?_pos rows').mpr ⟨first.tall, second.tall⟩
  have wide : 0 < width := (commonLength?_pos columns').mpr ⟨first.wide, second.wide⟩
  have combined : combine f left right = .array (Grid.build height width fun row column =>
      f (stretched left row column) (stretched right row column)) := by
    rw [combine, rows', columns']
  rw [combined]
  refine ⟨.build tall wide heights widths fun _ _ => plain _ _, ?_⟩
  intro row column below beside
  have above : (if height = 1 then 0 else row) < height := by
    split <;> omega
  have before : (if width = 1 then 0 else column) < width := by
    split <;> omega
  have cutLeft := left.placed?_cut (fun one => (single one).1) (fun one => (single' one).1) row column
  have cutRight := right.placed?_cut (fun one => (single one).2) (fun one => (single' one).2) row column
  rw [grid, Grid.placed?, Grid.extent_build tall, Grid.at?_build above before]
  simp only [stretched_eq, cutLeft, cutRight]

/-- A function of two values keeps tables, and the entries of its result are its values for the
entries. -/
theorem placed?_lift₂ {f : Value → Value → Value} (plain : ∀ v w, (f v w).IsSingle)
    (first : v.grid.Tabular rows columns) (second : w.grid.Tabular rows columns) :
    (lift₂ f v w).grid.Tabular rows columns ∧
      ∀ row column, row < max 1 rows → column < max 1 columns → ∀ a b,
        v.grid.placed? row column = some a → w.grid.placed? row column = some b →
          (lift₂ f v w).grid.placed? row column = some (f a b) := by
  obtain ⟨table, entries⟩ := placed?_combine plain first second
  rw [grid_lift₂ plain]
  refine ⟨table, ?_⟩
  intro row column below beside a b left right
  rw [entries row column below beside, stretched_eq, stretched_eq, left, right]
  rfl

/-- A function extended to arrays is itself for a value that is none. -/
theorem lift_of_isSingle (f : Value → Value) (alone : v.IsSingle) : lift f v = f v := by
  cases v with
  | array rows => exact absurd rfl (alone rows)
  | _ => rfl

/-- A function of two values extended to arrays is itself for values that are none. -/
theorem lift₂_of_isSingle (f : Value → Value → Value) (alone : v.IsSingle) (alone' : w.IsSingle) :
    lift₂ f v w = f v w := by
  cases v with
  | array rows => exact absurd rfl (alone rows)
  | _ =>
    cases w with
    | array rows => exact absurd rfl (alone' rows)
    | _ => rfl

/-! ### Errors about sizes -/

/-- What is reported of arrays that have no common size. -/
def sizeMismatch : CellError := .because .value "Array arguments are of different size."

/-- A number is not read with a report about sizes. -/
theorem mismatch_of_asNumber (reported : v.asNumber = .error sizeMismatch) : v = .error sizeMismatch := by
  cases v with
  | text content =>
    unfold asNumber at reported
    dsimp only at reported
    split at reported
    · contradiction
    · split at reported
      · contradiction
      · have words := Option.some.inj (congrArg CellError.message (Except.error.inj reported))
        have first := congrArg (fun words => words.toList.head?) words
        simp [toString] at first
  | array rows => exact absurd (Except.error.inj reported) (by decide)
  | error e => exact congrArg error (Except.error.inj reported)
  | _ => contradiction

/-- A text is not read with a report about sizes. -/
theorem mismatch_of_asText (reported : v.asText = .error sizeMismatch) : v = .error sizeMismatch := by
  cases v with
  | array rows => exact absurd (Except.error.inj reported) (by decide)
  | error e => exact congrArg error (Except.error.inj reported)
  | _ => contradiction

/-- A number that results is no report about sizes. -/
theorem ofResult_ne_mismatch (x : Float) : ofResult x ≠ .error sizeMismatch := by
  unfold ofResult
  split
  · exact Value.noConfusion
  · exact fun same => absurd (error.inj same) (by decide)

/-- A quotient is no report about sizes. -/
theorem quotient_ne_mismatch (x y : Float) : quotient x y ≠ .error sizeMismatch := by
  unfold quotient
  split
  · exact fun same => absurd (error.inj same) (by decide)
  · exact ofResult_ne_mismatch _

/-- A power is no report about sizes. -/
theorem power_ne_mismatch (x y : Float) : power x y ≠ .error sizeMismatch := by
  unfold power
  split
  · exact fun same => absurd (error.inj same) (by decide)
  · exact ofResult_ne_mismatch _

/-- A function of numbers reports about sizes only what it is given. -/
theorem mismatch_of_mapNumber {f : Float → Float} (reported : mapNumber f v = .error sizeMismatch) :
    v = .error sizeMismatch := by
  unfold mapNumber at reported
  split at reported
  · exact absurd reported (ofResult_ne_mismatch _)
  · rename_i e read
    exact mismatch_of_asNumber (read.trans (congrArg Except.error (error.inj reported)))

/-- A function of two numbers reports about sizes only what it is given. -/
theorem mismatch_of_mapNumbers {f : Float → Float → Value} (never : ∀ x y, f x y ≠ .error sizeMismatch)
    (reported : mapNumbers f v w = .error sizeMismatch) :
    v = .error sizeMismatch ∨ w = .error sizeMismatch := by
  unfold mapNumbers at reported
  split at reported
  · exact absurd reported (never _ _)
  · rename_i e read
    exact .inl (mismatch_of_asNumber (read.trans (congrArg Except.error (error.inj reported))))
  · rename_i e read _
    exact .inr (mismatch_of_asNumber (read.trans (congrArg Except.error (error.inj reported))))

/-- Joined texts report about sizes only what they are made of. -/
theorem mismatch_of_join (reported : join v w = .error sizeMismatch) :
    v = .error sizeMismatch ∨ w = .error sizeMismatch := by
  unfold join at reported
  split at reported
  · contradiction
  · rename_i e read
    exact .inl (mismatch_of_asText (read.trans (congrArg Except.error (error.inj reported))))
  · rename_i e read _
    exact .inr (mismatch_of_asText (read.trans (congrArg Except.error (error.inj reported))))

/-- A comparison reports about sizes only what it is given. -/
theorem mismatch_of_compareBy {holds : Ordering → Bool} (reported : compareBy holds v w = .error sizeMismatch) :
    v = .error sizeMismatch ∨ w = .error sizeMismatch := by
  unfold compareBy at reported
  split at reported
  · exact .inl reported
  · exact .inr reported
  · contradiction

end Value

namespace UnaryOperator

variable {v : Value} {rows columns : Nat}

/-- An operator of one operand keeps tables, and the entries of its result are its values for the
entries. -/
theorem placed?_apply (operator : UnaryOperator) (table : v.grid.Tabular rows columns) :
    (operator.apply v).grid.Tabular rows columns ∧
      ∀ row column a, v.grid.placed? row column = some a → a.IsSingle →
        (operator.apply v).grid.placed? row column = some (operator.apply a) := by
  have plain := operator.isSingle_applySingle
  have entries := Value.grid_lift plain v
  rw [apply, entries]
  refine ⟨table.map plain, ?_⟩
  intro row column a found alone
  rw [Grid.placed?_map, found, Value.lift_of_isSingle _ alone]
  rfl

/-- An operator reports about sizes only what its operand does. -/
theorem mismatch_of_apply {operator : UnaryOperator} (alone : v.IsSingle)
    (reported : operator.apply v = .error Value.sizeMismatch) : v = .error Value.sizeMismatch := by
  rw [apply, Value.lift_of_isSingle _ alone] at reported
  cases operator with
  | plus | minus | percent =>
    rw [applySingle] at reported
    exact Value.mismatch_of_mapNumber reported
  | other symbol =>
    rw [applySingle] at reported
    have errors : CellError.ofFormula s!"Unary op '{symbol}'" = Value.sizeMismatch :=
      Value.error.inj reported
    have kinds : ErrorKind.general = ErrorKind.value := congrArg CellError.kind errors
    contradiction

end UnaryOperator

namespace BinaryOperator

variable {v w : Value} {rows columns : Nat}

/-- An operator of two operands keeps tables, and the entries of its result are its values for the
entries. -/
theorem placed?_apply (operator : BinaryOperator) (first : v.grid.Tabular rows columns)
    (second : w.grid.Tabular rows columns) :
    (operator.apply v w).grid.Tabular rows columns ∧
      ∀ row column, row < max 1 rows → column < max 1 columns → ∀ a b,
        v.grid.placed? row column = some a → w.grid.placed? row column = some b →
          a.IsSingle → b.IsSingle →
            (operator.apply v w).grid.placed? row column = some (operator.apply a b) := by
  unfold apply
  cases known : operator.applySingle? with
  | none =>
    have alone := Value.isSingle_error (.ofFormula s!"Binary op '{operator.symbol}'")
    exact ⟨alone.tabular, fun row column _ _ _ _ _ _ _ _ => alone.placed? row column⟩
  | some f =>
    obtain ⟨table, entries⟩ := Value.placed?_lift₂ (isSingle_applySingle? known) first second
    refine ⟨table, ?_⟩
    intro row column below beside a b left right alone alone'
    dsimp only
    rw [entries row column below beside a b left right, Value.lift₂_of_isSingle f alone alone']

/-- An operator on single values reports about sizes only what one of them does. -/
theorem mismatch_of_applySingle? {operator : BinaryOperator} {f : Value → Value → Value}
    (known : operator.applySingle? = some f) (reported : f v w = .error Value.sizeMismatch) :
    v = .error Value.sizeMismatch ∨ w = .error Value.sizeMismatch := by
  cases operator with
  | plus | minus | times =>
    obtain rfl := Option.some.inj known
    exact Value.mismatch_of_mapNumbers (fun _ _ => Value.ofResult_ne_mismatch _) reported
  | divide =>
    obtain rfl := Option.some.inj known
    exact Value.mismatch_of_mapNumbers Value.quotient_ne_mismatch reported
  | power =>
    obtain rfl := Option.some.inj known
    exact Value.mismatch_of_mapNumbers Value.power_ne_mismatch reported
  | join =>
    obtain rfl := Option.some.inj known
    exact Value.mismatch_of_join reported
  | equal | notEqual | less | greater | atMost | atLeast =>
    obtain rfl := Option.some.inj known
    exact Value.mismatch_of_compareBy reported
  | other symbol => contradiction

/-- An operator reports about sizes only what one of two single operands does. -/
theorem mismatch_of_apply {operator : BinaryOperator} (alone : v.IsSingle) (alone' : w.IsSingle)
    (reported : operator.apply v w = .error Value.sizeMismatch) :
    v = .error Value.sizeMismatch ∨ w = .error Value.sizeMismatch := by
  unfold apply at reported
  cases known : operator.applySingle? with
  | none =>
    rw [known] at reported
    have errors : CellError.ofFormula s!"Binary op '{operator.symbol}'" = Value.sizeMismatch :=
      Value.error.inj reported
    have kinds : ErrorKind.general = ErrorKind.value := congrArg CellError.kind errors
    contradiction
  | some f =>
    rw [known] at reported
    dsimp only at reported
    rw [Value.lift₂_of_isSingle f alone alone'] at reported
    exact mismatch_of_applySingle? known reported

end BinaryOperator

/-! ### Trees of operators -/

namespace Expr

variable {world : Surroundings} {rows columns row column : Nat} {e : Expr} {v w : Value}

/-- The parts of a tree that operators are applied to, from left to right. -/
def leaves : Expr → List Expr
  | .unary _ operand _ => operand.leaves
  | .binary _ left right _ => left.leaves ++ right.leaves
  | leaf => [leaf]

/-- The leaves of a tree come to tables: to single values or to arrays of them, with one row or a given
number of rows, and one column or a given number of columns. -/
def OnTables (world : Surroundings) (rows columns : Nat) (e : Expr) : Prop :=
  ∀ leaf ∈ e.leaves, ∃ v, (leaf.evaluate world).result = .ok v ∧ v.grid.Tabular rows columns

/-- The tree with the entry of each leaf at a place instead of the leaf. -/
def atPlace (world : Surroundings) (row column : Nat) : Expr → Expr
  | .unary operator operand span => .unary operator (operand.atPlace world row column) span
  | .binary operator left right span =>
    .binary operator (left.atPlace world row column) (right.atPlace world row column) span
  | leaf =>
    match (leaf.evaluate world).result with
    | .ok v => .literal ((v.grid.placed? row column).getD .empty) none
    | .error _ => leaf

/-- Each operator of two operands gets operands of one size, a dimension of one being of any size. -/
def SizesAgree (world : Surroundings) : Expr → Prop
  | .unary _ operand _ => operand.SizesAgree world
  | .binary _ left right _ =>
    (left.SizesAgree world ∧ right.SizesAgree world) ∧
      ∀ v w, (left.evaluate world).result = .ok v → (right.evaluate world).result = .ok w →
        (Value.commonLength? v.extent.1 w.extent.1).isSome ∧
          (Value.commonLength? v.extent.2 w.extent.2).isSome
  | _ => True

/-- The entry of one of the leaves at a place is a report about sizes. -/
def GivenMismatch (world : Surroundings) (row column : Nat) (e : Expr) : Prop :=
  ∃ leaf ∈ e.leaves, ∃ v, (leaf.evaluate world).result = .ok v ∧
    v.grid.placed? row column = some (.error Value.sizeMismatch)

/-- A value has at a place what a tree comes to there, and it reports about sizes only what a leaf
does. -/
structure HasAtPlace (world : Surroundings) (row column : Nat) (e : Expr) (v entry : Value) : Prop where
  found : v.grid.placed? row column = some entry
  value : ((e.atPlace world row column).evaluate world).result = .ok entry
  given : entry = .error Value.sizeMismatch → e.GivenMismatch world row column

/-- The value of an operator of one operand. -/
theorem result_unary {operator : UnaryOperator} {operand : Expr} {span : Option Span}
    (value : (operand.evaluate world).result = .ok v) :
    ((Expr.unary operator operand span).evaluate world).result = .ok (operator.apply v) := by
  rw [evaluate, Evaluation.result_bind, value]
  rfl

/-- The value of an operator of two operands. -/
theorem result_binary {operator : BinaryOperator} {left right : Expr} {span : Option Span}
    (first : (left.evaluate world).result = .ok v) (second : (right.evaluate world).result = .ok w) :
    ((Expr.binary operator left right span).evaluate world).result = .ok (operator.apply v w) := by
  rw [evaluate, Evaluation.result_bind, first]
  dsimp only
  rw [Evaluation.result_bind, second]
  rfl

/-- A leaf has at each place its own entry. -/
theorem hasAtPlace_leaf (listed : e ∈ e.leaves) (value : (e.evaluate world).result = .ok v)
    (found : v.grid.placed? row column = some w) (notUnary : ∀ operator operand span,
      e ≠ .unary operator operand span) (notBinary : ∀ operator left right span,
      e ≠ .binary operator left right span) : HasAtPlace world row column e v w where
  found := found
  value := by
    rw [atPlace, value]
    · dsimp only
      rw [found]
      rfl
    · exact notUnary
    · exact notBinary
  given same := ⟨e, listed, v, value, same ▸ found⟩

/-- An operator of one operand has at each place its value for the entry there. -/
theorem HasAtPlace.unary (operator : UnaryOperator) {operand : Expr} {a : Value} (span : Option Span)
    (table : v.grid.Tabular rows columns) (result : HasAtPlace world row column operand v a) :
    HasAtPlace world row column (.unary operator operand span) (operator.apply v) (operator.apply a) where
  found := (operator.placed?_apply table).2 row column a result.found
    (table.isSingle_of_placed? result.found)
  value := result_unary result.value
  given reported := result.given
    (operator.mismatch_of_apply (table.isSingle_of_placed? result.found) reported)

/-- An operator of two operands has at each place its value for the entries there. -/
theorem HasAtPlace.binary (operator : BinaryOperator) {left right : Expr} {a b : Value}
    (span : Option Span) (below : row < max 1 rows) (beside : column < max 1 columns)
    (table : v.grid.Tabular rows columns) (table' : w.grid.Tabular rows columns)
    (first : HasAtPlace world row column left v a) (second : HasAtPlace world row column right w b) :
    HasAtPlace world row column (.binary operator left right span) (operator.apply v w)
      (operator.apply a b) where
  found := (operator.placed?_apply table table').2 row column below beside a b first.found second.found
    (table.isSingle_of_placed? first.found) (table'.isSingle_of_placed? second.found)
  value := result_binary first.value second.value
  given reported := by
    have single := table.isSingle_of_placed? first.found
    have single' := table'.isSingle_of_placed? second.found
    rcases operator.mismatch_of_apply single single' reported with same | same
    · obtain ⟨leaf, listed, given⟩ := first.given same
      exact ⟨leaf, List.mem_append_left _ listed, given⟩
    · obtain ⟨leaf, listed, given⟩ := second.given same
      exact ⟨leaf, List.mem_append_right _ listed, given⟩

/-- A tree of operators on tables comes to a table, no operator is given operands of different size,
and at each place the entry of the result is what the tree comes to when each leaf is replaced by its
own entry there. An array with one row has the same entry in all rows, and likewise for columns. -/
theorem evaluate_pointwise (tables : e.OnTables world rows columns) :
    e.SizesAgree world ∧
      ∃ v, (e.evaluate world).result = .ok v ∧ v.grid.Tabular rows columns ∧
        ∀ row column, row < max 1 rows → column < max 1 columns →
          ∃ entry, HasAtPlace world row column e v entry := by
  induction e using leaves.induct with
  | case1 operator operand span ih =>
    obtain ⟨agree, v, value, table, entries⟩ := ih tables
    refine ⟨agree, _, result_unary value, (operator.placed?_apply table).1, ?_⟩
    intro row column below beside
    obtain ⟨a, result⟩ := entries row column below beside
    exact ⟨_, .unary operator span table result⟩
  | case2 operator left right span first second =>
    have tablesLeft : left.OnTables world rows columns := fun leaf listed =>
      tables leaf (List.mem_append_left _ listed)
    have tablesRight : right.OnTables world rows columns := fun leaf listed =>
      tables leaf (List.mem_append_right _ listed)
    obtain ⟨agree, v, value, table, entries⟩ := first tablesLeft
    obtain ⟨agree', w, value', table', entries'⟩ := second tablesRight
    refine ⟨⟨⟨agree, agree'⟩, ?_⟩, _, result_binary value value',
      (operator.placed?_apply table table').1, ?_⟩
    · intro x y computed computed'
      obtain rfl := Except.ok.inj (value.symm.trans computed)
      obtain rfl := Except.ok.inj (value'.symm.trans computed')
      rw [← Value.extent_grid, ← Value.extent_grid]
      exact Value.isSome_commonLength? table table'
    · intro row column below beside
      obtain ⟨a, result⟩ := entries row column below beside
      obtain ⟨b, result'⟩ := entries' row column below beside
      exact ⟨_, .binary operator span below beside table table' result result'⟩
  | case3 leaf notUnary notBinary =>
    have alone : leaf.leaves = [leaf] := by
      rw [leaves]
      · exact notUnary
      · exact notBinary
    have listed : leaf ∈ leaf.leaves := by
      rw [alone]
      exact List.mem_singleton_self leaf
    obtain ⟨v, value, table⟩ := tables leaf listed
    refine ⟨?_, v, value, table, ?_⟩
    · rw [SizesAgree]
      · trivial
      · exact notUnary
      · exact notBinary
    · intro row column below beside
      obtain ⟨entry, found, _⟩ := table.exists_placed? below beside
      exact ⟨entry, hasAtPlace_leaf listed value found notUnary notBinary⟩

/-- The percentages of a column of three numbers times a row of two. -/
def productPercentages : Expr :=
  .unary .percent (.binary .times
    (.array [[.literal (.integer 1) none], [.literal (.integer 2) none], [.literal .empty none]] none)
    (.literal (.array [[.text "7", .boolean true]]) none) none) none

/-- The leaves of the percentages come to a column and a row wherever they are evaluated. -/
theorem onTables_productPercentages (world : Surroundings) : productPercentages.OnTables world 3 2 := by
  intro leaf listed
  simp only [productPercentages, leaves, List.cons_append, List.nil_append, List.mem_cons,
    List.not_mem_nil, or_false] at listed
  rcases listed with rfl | rfl
  · refine ⟨.array [[.integer 1], [.integer 2], [.empty]], rfl, by decide, by decide, .inr rfl,
      .inl rfl, ?_, ?_⟩
    · unfold Grid.Even
      decide
    · simp [Value.grid]
  · refine ⟨.array [[.text "7", .boolean true]], rfl, by decide, by decide, .inl rfl, .inr rfl, ?_, ?_⟩
    · unfold Grid.Even
      decide
    · simp [Value.grid]

/-- A column times a row has an entry for each pair, the last one included. -/
theorem evaluate_pointwise_productPercentages :
    ∃ world : Surroundings, productPercentages.OnTables world 3 2 ∧
      productPercentages.SizesAgree world ∧
      ∃ v, (productPercentages.evaluate world).result = .ok v ∧
        ∃ entry, HasAtPlace world 2 1 productPercentages v entry := by
  let world : Surroundings :=
    ⟨fun _ => .error .invalidReference, fun _ => .empty, fun _ => none, fun _ => none⟩
  have tables := onTables_productPercentages world
  obtain ⟨agree, v, value, _, entries⟩ := evaluate_pointwise tables
  exact ⟨world, tables, agree, v, value, entries 2 1 (by decide) (by decide)⟩

end Expr

end Spreadsheet
