import Spreadsheet.Proofs.Evaluation.Pointwise
import Spreadsheet.Proofs.Workbook.ShownValues

/-!
# Formats that match values

A format matches a value if it is a single format of a single value or has an entry for each entry of a
larger array. The format of a reference matches its value, and so does that of a sign before it. The
format of an arithmetic result goes with the value if those of both operands match theirs. An array
without formats beside a format is what may go wrong: the result has a single format then, but is an
array. So the argument of a transposition is harmless if arithmetic in it joins single values, ranges
and signs before them, or only parts without formats; any other function hides what is inside of it.
-/
namespace Spreadsheet

namespace UnaryOperator

/-- An operator leaves an error. -/
theorem exists_apply_error (operator : UnaryOperator) (e : CellError) :
    ∃ e', operator.apply (.error e) = .error e' := by
  cases operator <;> exact ⟨_, rfl⟩

/-- An operator on a single value gives no array. -/
theorem isSingle_apply (operator : UnaryOperator) {v : Value} (alone : v.IsSingle) :
    (operator.apply v).IsSingle := by
  rw [apply, Value.lift_of_isSingle _ alone]
  exact operator.isSingle_applySingle v

end UnaryOperator

/-- An operator on single values gives no array. -/
theorem BinaryOperator.isSingle_apply (operator : BinaryOperator) {v w : Value} (first : v.IsSingle)
    (second : w.IsSingle) : (operator.apply v w).IsSingle := by
  unfold apply
  split
  · rename_i f found
    rw [Value.lift₂_of_isSingle _ first second]
    exact isSingle_applySingle? found v w
  · exact Value.isSingle_error _

namespace Value

variable {v : Value} {values : Grid Value} {rows columns : Nat}

/-- A single value on the right is joined to each entry of an array. -/
theorem exists_lift₂_single (f : Value → Value → Value) (tall : 0 < rows)
    (sized : values.Sized rows columns) (alone : v.IsSingle) :
    ∃ entries : Grid Value, lift₂ f (.array values) v = .array entries ∧
      entries.Sized rows columns := by
  have lifted : lift₂ f (.array values) v = combine f values [[v]] := by
    cases v with
    | array rows => exact absurd rfl (alone rows)
    | _ => rfl
  have one : Grid.extent [[v]] = (1, 1) := rfl
  have height : commonLength? rows 1 = some rows := if_pos (.inr rfl)
  have width : commonLength? columns 1 = some columns := if_pos (.inr rfl)
  rw [lifted, combine, sized.extent_eq tall, one]
  dsimp only
  rw [height, width]
  exact ⟨_, rfl, Grid.length_build _ _ _, Grid.even_build _ _ _⟩

/-- A single value on the left is joined to each entry of an array. -/
theorem exists_single_lift₂ (f : Value → Value → Value) (tall : 0 < rows)
    (sized : values.Sized rows columns) (alone : v.IsSingle) :
    ∃ entries : Grid Value, lift₂ f v (.array values) = .array entries ∧
      entries.Sized rows columns := by
  have lifted : lift₂ f v (.array values) = combine f [[v]] values := by
    cases v with
    | array rows => exact absurd rfl (alone rows)
    | _ => rfl
  have one : Grid.extent [[v]] = (1, 1) := rfl
  have common : ∀ length, commonLength? 1 length = some length := fun length => by
    unfold commonLength?
    split
    · rename_i same
      rcases same with same | same <;> rw [same]
    · rfl
  rw [lifted, combine, sized.extent_eq tall, one]
  dsimp only
  rw [common, common]
  exact ⟨_, rfl, Grid.length_build _ _ _, Grid.even_build _ _ _⟩

end Value

namespace ResultFormat

variable {format left right : ResultFormat} {v w : Value}

/-- The format has the shape of the value: it is a single format of a single value, or has an entry for
each entry of a larger array. -/
inductive Matches : ResultFormat → Value → Prop where
  | single {format : Option String} {v : Value} (alone : v.IsSingle) : Matches (.single format) v
  | grid {formats : Grid (Option String)} {values : Grid Value} {rows columns : Nat}
    (tall : 0 < rows) (wide : 0 < columns) (larger : rows ≠ 1 ∨ columns ≠ 1)
    (sized : values.Sized rows columns) (formatted : formats.Sized rows columns) :
    Matches (.grid formats) (.array values)

/-- A format that matches a value goes with it. -/
theorem Matches.suits (fits : format.Matches v) : format.Suits v := by
  cases fits with
  | single alone => exact .single alone
  | grid tall wide larger sized formatted => exact .grid tall wide larger sized formatted

/-- Changing every entry keeps the size of a grid. -/
theorem sized_map {values : Grid Value} {rows columns : Nat} (sized : values.Sized rows columns)
    (change : Value → Value) :
    Grid.Sized (values.map fun row => row.map change : Grid Value) rows columns where
  length := (List.length_map _).trans sized.length
  even := sized.even.map change

/-- A format goes on matching when an operator is applied to the value. -/
theorem Matches.apply (fits : format.Matches v) (operator : UnaryOperator) :
    format.Matches (operator.apply v) := by
  cases fits with
  | single alone => exact .single (operator.isSingle_apply alone)
  | grid tall wide larger sized formatted =>
    exact .grid tall wide larger (sized_map sized _) formatted

/-- A format goes with the value after an operator is applied to it. -/
theorem Suits.apply (goes : format.Suits v) (operator : UnaryOperator) :
    format.Suits (operator.apply v) := by
  cases goes with
  | none => exact .none
  | error =>
    obtain ⟨e, result⟩ := operator.exists_apply_error _
    rw [result]
    exact .error
  | single alone => exact .single (operator.isSingle_apply alone)
  | grid tall wide larger sized formatted =>
    exact .grid tall wide larger (sized_map sized _) formatted

/-- The format of an arithmetic result goes with it if the formats of the operands match theirs. -/
theorem Matches.arithmetic (first : left.Matches v) (second : right.Matches w)
    (operator : BinaryOperator) : (left.arithmetic right).Suits (operator.apply v w) := by
  cases applied : operator.applySingle? with
  | none =>
    have failed : ∃ e, operator.apply v w = .error e := by
      unfold BinaryOperator.apply
      rw [applied]
      exact ⟨_, rfl⟩
    obtain ⟨e, result⟩ := failed
    rw [result]
    exact .error
  | some f =>
    have lifted : operator.apply v w = Value.lift₂ f v w := by
      unfold BinaryOperator.apply
      rw [applied]
    cases first with
    | @single format v alone =>
      cases second with
      | single alone' => exact .single (operator.isSingle_apply alone alone')
      | grid tall wide larger sized formatted =>
        cases format with
        | some format => exact .none
        | none =>
          obtain ⟨entries, combined, size⟩ := Value.exists_single_lift₂ f tall sized alone
          rw [lifted, combined]
          exact .grid tall wide larger size formatted
    | grid tall wide larger sized formatted =>
      cases second with
      | @single format w alone =>
        cases format with
        | some format => exact .none
        | none =>
          obtain ⟨entries, combined, size⟩ := Value.exists_lift₂_single f tall sized alone
          rw [lifted, combined]
          exact .grid tall wide larger size formatted
      | grid => exact .none

end ResultFormat

namespace Expr

open Evaluation

variable {world : Surroundings} {e : Expr} {format : Position → Option String}

/-- The tree has a single value and a single format: operators join literals, references to one cell
and calls of functions that give no array. -/
inductive Alone (world : Surroundings) : Expr → Prop where
  | literal {v : Value} {span : Option Span} (alone : v.IsSingle) : Alone world (.literal v span)
  | cell {target : Reference} {spelling : String} {span : Option Span}
    (leads : ∀ zone, world.resolve target = .ok zone →
      zone.isSingle = true ∧ (world.value zone.topLeft).IsSingle) :
    Alone world (.reference target spelling span)
  | unary {operator : UnaryOperator} {operand : Expr} {span : Option Span}
    (alone : Alone world operand) : Alone world (.unary operator operand span)
  | binary {operator : BinaryOperator} {left right : Expr} {span : Option Span}
    (first : Alone world left) (second : Alone world right) :
    Alone world (.binary operator left right span)
  | call {name : String} {f : Function} {arguments : List Expr} {span : Option Span}
    (found : world.function? name = some f) (listed : f ∈ Function.library)
    (other : f ≠ Function.transposition) (other' : f ≠ Function.choice) :
    Alone world (.call name arguments span)

/-- The tree has a format of the shape of its value: it is a range of more than one cell or has a single
value, perhaps after signs. -/
inductive Matched (world : Surroundings) : Expr → Prop where
  | alone {e : Expr} (alone : Alone world e) : Matched world e
  | range {sheet : Option String} {start stop : Corner} {spelling : String} {span : Option Span}
    (leads : ∀ zone, world.resolve (.range sheet start stop) = .ok zone → zone.isSingle = false) :
    Matched world (.reference (.range sheet start stop) spelling span)
  | sign {operator : UnaryOperator} {operand : Expr} {span : Option Span} (other : operator ≠ .percent)
    (matched : Matched world operand) : Matched world (.unary operator operand span)

/-- The tree has no format, whatever formats cells show. -/
inductive Bare (world : Surroundings) : Expr → Prop where
  | literal {v : Value} {span : Option Span} : Bare world (.literal v span)
  | array {rows : List (List Expr)} {span : Option Span} : Bare world (.array rows span)
  | percent {operand : Expr} {span : Option Span} : Bare world (.unary .percent operand span)
  | sign {operator : UnaryOperator} {operand : Expr} {span : Option Span}
    (bare : Bare world operand) : Bare world (.unary operator operand span)
  | joined {operator : BinaryOperator} {left right : Expr} {span : Option Span}
    (drops : operator.keepsFormat = false) : Bare world (.binary operator left right span)
  | arithmetic {operator : BinaryOperator} {left right : Expr} {span : Option Span}
    (first : Bare world left) (second : Bare world right) :
    Bare world (.binary operator left right span)

/-- The tree has a format that goes with its value: only parts without formats, or only parts with
formats of the shapes of their values, meet in arithmetic, and what is transposed is such a tree. -/
inductive Harmless (world : Surroundings) : Expr → Prop where
  | bare {e : Expr} (bare : Bare world e) : Harmless world e
  | matched {e : Expr} (matched : Matched world e) : Harmless world e
  | sign {operator : UnaryOperator} {operand : Expr} {span : Option Span}
    (harmless : Harmless world operand) : Harmless world (.unary operator operand span)
  | arithmetic {operator : BinaryOperator} {left right : Expr} {span : Option Span}
    (first : Matched world left) (second : Matched world right) :
    Harmless world (.binary operator left right span)
  | call {name : String} {f : Function} {arguments : List Expr} {span : Option Span}
    (found : world.function? name = some f) (listed : f ∈ Function.library)
    (other : f ≠ Function.transposition) : Harmless world (.call name arguments span)
  | transposition {name : String} {argument : Expr} {rest : List Expr} {span : Option Span}
    (found : world.function? name = some Function.transposition)
    (harmless : Harmless world argument) : Harmless world (.call name (argument :: rest) span)

/-- A tree with a single value has one format, if any. -/
theorem Alone.format_eq (alone : e.Alone world) (format : Position → Option String) :
    ∃ single, e.format (world.withFormat format) = .single single := by
  induction alone with
  | literal alone => exact ⟨none, rfl⟩
  | @cell target spelling span leads =>
    unfold Expr.format Surroundings.formatOfReference
    rw [Surroundings.resolve_withFormat]
    cases led : world.resolve target with
    | error e => exact ⟨none, rfl⟩
    | ok zone => exact ⟨_, if_pos (leads zone led).1⟩
  | @unary operator operand span alone ih =>
    cases operator with
    | percent => exact ⟨none, rfl⟩
    | _ => exact ih
  | @binary operator left right span first second ih ih' =>
    obtain ⟨left, same⟩ := ih
    obtain ⟨right, same'⟩ := ih'
    unfold Expr.format
    rw [same, same']
    split
    · exact ⟨_, rfl⟩
    · exact ⟨none, rfl⟩
  | @call name f arguments span found listed other other' =>
    unfold Expr.format
    rw [Surroundings.function?_withFormat, found]
    exact Function.format_of_mem_library listed other _

/-- A tree with a single value yields one. -/
theorem Alone.yields_isSingle (alone : e.Alone world) : (e.evaluate world).Yields Value.IsSingle := by
  induction alone with
  | literal alone =>
    unfold evaluate
    exact yields_pure alone
  | @cell target spelling span leads =>
    unfold evaluate
    refine yields_pure ?_
    cases led : world.resolve target with
    | error e =>
      have failed : world.read target = .error e := by
        cases target with
        | cell => simp only [Surroundings.read, led]
        | range => simp only [Surroundings.read, Surroundings.block, led, Except.map]
      rw [failed]
      exact Value.isSingle_error e
    | ok zone =>
      obtain ⟨small, single⟩ := leads zone led
      rwa [read_of_isSingle led small]
  | @unary operator operand span alone ih =>
    unfold evaluate
    exact ih.bind fun v single => yields_pure (operator.isSingle_apply single)
  | @binary operator left right span first second ih ih' =>
    unfold evaluate
    exact ih.bind fun v single => ih'.bind fun w single' =>
      yields_pure (operator.isSingle_apply single single')
  | @call name f arguments span found listed other other' =>
    unfold evaluate
    rw [found]
    exact Function.yields_isSingle_of_mem_library listed other other'

/-- The format of a range of more than one cell has the shape of its value. -/
theorem matches_range {sheet : Option String} {start stop : Corner}
    (leads : ∀ zone, world.resolve (.range sheet start stop) = .ok zone → zone.isSingle = false)
    (format : Position → Option String) :
    ((world.withFormat format).formatOfReference (.range sheet start stop)).Matches
      (world.read (.range sheet start stop)) := by
  unfold Surroundings.formatOfReference Surroundings.read Surroundings.block
  rw [Surroundings.resolve_withFormat]
  cases led : world.resolve (.range sheet start stop) with
  | error e => exact .single (Value.isSingle_error e)
  | ok zone =>
    have larger := zone.larger_of_not_isSingle (leads zone led)
    have sized : (world.zoneValues zone).Sized zone.rows zone.columns :=
      ⟨Grid.length_build _ _ _, Grid.even_build _ _ _⟩
    dsimp only [Except.map, Surroundings.zoneBlock]
    rw [if_neg (by simp [leads zone led]), sized.only?_eq_none larger]
    exact .grid (Nat.succ_pos _) (Nat.succ_pos _) larger sized
      ⟨Grid.length_build _ _ _, Grid.even_build _ _ _⟩

/-- A matched tree yields a value of the shape of its format. -/
theorem Matched.matches (matched : e.Matched world) (format : Position → Option String) :
    (e.evaluate world).Yields fun v => (e.format (world.withFormat format)).Matches v := by
  induction matched with
  | alone alone =>
    obtain ⟨single, same⟩ := alone.format_eq format
    rw [same]
    exact fun v found => .single (alone.yields_isSingle v found)
  | range leads =>
    unfold evaluate Expr.format
    exact yields_pure (matches_range leads format)
  | @sign operator operand span other matched ih =>
    have kept : (Expr.unary operator operand span).format (world.withFormat format) =
        operand.format (world.withFormat format) := by
      cases operator with
      | percent => contradiction
      | _ => rfl
    unfold evaluate
    rw [kept]
    exact ih.bind fun v fits => yields_pure (fits.apply operator)

/-- A bare tree has no format. -/
theorem Bare.format_eq (bare : e.Bare world) (format : Position → Option String) :
    e.format (world.withFormat format) = .none := by
  induction bare with
  | literal => rfl
  | array => rfl
  | percent => rfl
  | @sign operator operand span bare ih =>
    cases operator with
    | percent => rfl
    | _ => exact ih
  | joined drops =>
    unfold Expr.format
    rw [drops]
    rfl
  | arithmetic first second ih ih' =>
    unfold Expr.format
    rw [ih, ih']
    split <;> rfl

/-- A harmless tree yields a value with which its format goes. -/
theorem Harmless.suits (harmless : e.Harmless world)
    (known : ∀ name f, world.function? name = some f → f ∈ Function.library)
    (format : Position → Option String) :
    (e.evaluate world).Yields fun v => (e.format (world.withFormat format)).Suits v := by
  induction harmless generalizing format with
  | bare bare =>
    rw [bare.format_eq format]
    exact fun v found => .none
  | matched matched => exact fun v found => (matched.matches format v found).suits
  | @sign operator operand span harmless ih =>
    cases operator with
    | percent => exact fun v found => .none
    | _ =>
      unfold evaluate
      exact (ih format).bind fun v goes => yields_pure (goes.apply _)
  | @arithmetic operator left right span first second =>
    unfold evaluate Expr.format
    split
    · exact (first.matches format).bind fun v fits => (second.matches format).bind fun w fits' =>
        yields_pure (fits.arithmetic fits' operator)
    · exact fun v found => .none
  | @call name f arguments span found listed other =>
    refine suits_of_isCall rfl known ?_ format
    cases arguments with
    | nil => trivial
    | cons argument rest =>
      intro transposes
      rw [found] at transposes
      exact absurd (Option.some.inj transposes) other
  | transposition found harmless ih =>
    refine suits_of_isCall rfl known ?_ format
    exact fun _ => ih

end Expr

namespace Workbook

variable {w : Workbook} {p : Position}

end Workbook

end Spreadsheet
