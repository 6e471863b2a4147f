import Spreadsheet.Proofs.Evaluation.Formats
import Spreadsheet.Proofs.Workbook.Outcomes

/-!
# Formats that suit values

The result of a function call must have a format of its shape, or the call comes to an error. A format
suits a value if it is absent, or is a single format of a single value, or has an entry for each entry of
a larger array. Every call of a library function has a format that suits its value, except that a
transposition has one only if the format of its argument suits the value of the argument. What a formula
comes to does not depend on a format that suits, apart from formats.
-/
namespace Spreadsheet

namespace Grid

variable {α : Type} {grid : Grid α} {rows columns : Nat}

/-- Swapping rows and columns swaps the size of a grid with rows. -/
theorem Sized.transpose (sized : grid.Sized rows columns) (tall : 0 < rows) :
    grid.transpose.Sized columns rows where
  length := by
    unfold Grid.transpose
    rw [List.length_map, List.length_range, sized.extent_eq tall]
  even := by
    have even := Function.even_transpose sized.even
    rwa [sized.length] at even

/-- A grid with more than one row or column has no only entry. -/
theorem Sized.only?_eq_none (sized : grid.Sized rows columns) (larger : rows ≠ 1 ∨ columns ≠ 1) :
    grid.only? = none := by
  cases found : grid.only? with
  | none => rfl
  | some a =>
    have alone := eq_of_only? found
    have length := sized.length
    have even := sized.even [a] (by rw [alone]; exact List.mem_singleton_self _)
    rw [alone] at length
    simp only [List.length_singleton] at length even
    omega

end Grid

/-- A zone of several cells has several rows or several columns. -/
theorem Zone.larger_of_not_isSingle (zone : Zone) (several : zone.isSingle = false) :
    zone.rows ≠ 1 ∨ zone.columns ≠ 1 := by
  have top := zone.top_le_bottom
  have left := zone.left_le_right
  simp only [isSingle, Bool.and_eq_false_iff, beq_eq_false_iff_ne] at several
  unfold rows columns
  omega

namespace ResultFormat

/-- The format goes with the value: there is none, or it is a single format of a single value, or an
array of formats of the size of a larger array. Any format goes with an error. -/
inductive Suits : ResultFormat → Value → Prop where
  | none {v : Value} : Suits .none v
  | error {format : ResultFormat} {e : CellError} : Suits format (.error e)
  | single {format : Option String} {v : Value} (alone : v.IsSingle) : Suits (.single format) v
  | grid {formats : Grid (Option String)} {values : Grid Value} {rows columns : Nat}
    (tall : 0 < rows) (wide : 0 < columns) (larger : rows ≠ 1 ∨ columns ≠ 1)
    (sized : values.Sized rows columns) (formatted : formats.Sized rows columns) :
    Suits (.grid formats) (.array values)

/-- The format of swapped rows and columns. -/
def transposed : ResultFormat → ResultFormat
  | .grid [[format]] => .single format
  | .grid formats => .grid formats.transpose
  | .single format => .single format

/-- An array of formats of more than one row or column is swapped as an array. -/
theorem transposed_grid {formats : Grid (Option String)} {rows columns : Nat}
    (larger : rows ≠ 1 ∨ columns ≠ 1) (formatted : formats.Sized rows columns) :
    transposed (.grid formats) = .grid formats.transpose := by
  have several := formatted.only?_eq_none larger
  unfold transposed
  split
  · rename_i format same
    rw [ResultFormat.grid.inj same] at several
    contradiction
  · rename_i formats' _ same
    rw [ResultFormat.grid.inj same]
  · contradiction

/-- Swapping the rows and columns of a larger array and of its formats keeps them together. -/
theorem suits_transpose {formats : Grid (Option String)} {values : Grid Value} {rows columns : Nat}
    (tall : 0 < rows) (wide : 0 < columns) (larger : rows ≠ 1 ∨ columns ≠ 1)
    (sized : values.Sized rows columns) (formatted : formats.Sized rows columns) :
    (transposed (.grid formats)).Suits ((values.only?).getD (.array values.transpose)) := by
  rw [transposed_grid larger formatted, sized.only?_eq_none larger]
  exact .grid wide tall larger.symm (sized.transpose tall) (formatted.transpose tall)

end ResultFormat

namespace Expr

open Evaluation

variable {world : Surroundings} {e : Expr}

/-- The values of a zone of one cell. -/
theorem zoneValues_of_isSingle {zone : Zone} (alone : zone.isSingle = true) :
    world.zoneValues zone = [[world.value zone.topLeft]] := by
  simp only [Zone.isSingle, Bool.and_eq_true, beq_iff_eq] at alone
  have rows : zone.rows = 1 := by
    unfold Zone.rows
    omega
  have columns : zone.columns = 1 := by
    unfold Zone.columns
    omega
  unfold Surroundings.zoneValues
  rw [rows, columns]
  rfl

/-- The format of a zone goes with its values, swapped. -/
theorem suits_transposed_zone {zone : Zone}
    (suits : zone.isSingle = true →
      (ResultFormat.single (world.format zone.topLeft)).Suits (world.value zone.topLeft)) :
    (if zone.isSingle = true then ResultFormat.single (world.format zone.topLeft)
      else .grid (world.zoneFormats zone)).transposed.Suits
        (((world.zoneValues zone).only?).getD (.array (world.zoneValues zone).transpose)) := by
  by_cases alone : zone.isSingle = true
  · rw [if_pos alone, zoneValues_of_isSingle alone]
    exact suits alone
  · have larger := zone.larger_of_not_isSingle (Bool.eq_false_iff.mpr alone)
    rw [if_neg alone]
    exact ResultFormat.suits_transpose (Nat.succ_pos _) (Nat.succ_pos _) larger
      ⟨Grid.length_build _ _ _, Grid.even_build _ _ _⟩
      ⟨Grid.length_build _ _ _, Grid.even_build _ _ _⟩

/-- The value of a reference that leads to one cell is that of the cell. -/
theorem read_of_isSingle {target : Reference} {zone : Zone} (led : world.resolve target = .ok zone)
    (alone : zone.isSingle = true) : world.read target = world.value zone.topLeft := by
  cases target with
  | cell sheet corner =>
    unfold Surroundings.read
    dsimp only
    rw [led]
  | range sheet start stop =>
    have block : world.block (.range sheet start stop) = .ok (world.zoneBlock zone) := by
      unfold Surroundings.block
      rw [led]
      rfl
    unfold Surroundings.read
    dsimp only
    rw [block]
    dsimp only [Surroundings.zoneBlock]
    rw [zoneValues_of_isSingle alone]
    rfl

/-- An argument that has not been settled has the value of its expression. -/
theorem value_argument (e : Expr) (covered : Unit → Except CellError CellBlock)
    (format : Unit → ResultFormat) :
    Argument.value ⟨e, e.evaluate world, none, covered, format⟩ = e.evaluate world := by
  cases e with
  | literal v span =>
    unfold evaluate
    rfl
  | _ => rfl

/-- The format of an argument goes with its swapped cells if it goes with its value. -/
theorem suits_transposed_block
    (suits : (e.evaluate world).Yields fun v => (e.format world).Suits v) :
    (Argument.block ⟨e, e.evaluate world, none, fun _ => e.covered world,
      fun _ => e.format world⟩).Yields fun block => (e.format world).transposed.Suits
        ((block.values.only?).getD (.array block.values.transpose)) := by
  unfold Argument.block
  by_cases reference : e.isReference = true
  · rw [if_pos reference]
    obtain ⟨target, spelling, span, rfl⟩ : ∃ target spelling span,
        e = .reference target spelling span := by
      cases e with
      | reference target spelling span => exact ⟨target, spelling, span, rfl⟩
      | _ => contradiction
    refine yields_ofExcept fun block found => ?_
    obtain ⟨zone, led, rfl⟩ : ∃ zone, world.resolve target = .ok zone ∧ world.zoneBlock zone = block := by
      dsimp only [covered, Surroundings.block] at found
      cases led : world.resolve target with
      | error e =>
        rw [led] at found
        contradiction
      | ok zone =>
        rw [led] at found
        exact ⟨zone, rfl, Except.ok.inj found⟩
    have format : (Expr.reference target spelling span).format world =
        if zone.isSingle = true then .single (world.format zone.topLeft)
        else .grid (world.zoneFormats zone) := by
      unfold Expr.format Surroundings.formatOfReference
      rw [led]
    rw [format] at suits ⊢
    refine suits_transposed_zone fun alone => ?_
    rw [if_pos alone] at suits
    have value : ((Expr.reference target spelling span).evaluate world).result =
        .ok (world.value zone.topLeft) := by
      unfold Expr.evaluate
      rw [read_of_isSingle led alone]
      rfl
    exact suits _ value
  · rw [if_neg reference, value_argument]
    refine Yields.bind suits fun v goes => yields_pure ?_
    dsimp only
    generalize e.format world = format at goes
    cases goes with
    | none => exact .none
    | error => exact .error
    | single alone =>
      cases v with
      | array rows => exact absurd rfl (alone rows)
      | _ => exact .single alone
    | grid tall wide larger sized formatted =>
      exact ResultFormat.suits_transpose tall wide larger sized formatted

end Expr

namespace Function

open Evaluation

variable {f : Function} {arguments : List Argument}

/-- A call yields what the body yields from any arguments. -/
theorem yields_call_of_body {P : Value → Prop} (body : ∀ settled, (f.body settled).Yields P) :
    (f.call arguments).Yields P :=
  yields_call (fun _ => trivial) (yields_any _) fun settled _ => body settled

/-- An aggregate is a single value. -/
theorem yields_isSingle_aggregate (name : String) (f : List Number → Except CellError Number) :
    ((aggregate name f).call arguments).Yields Value.IsSingle :=
  yields_call_of_body fun _ =>
    (yields_any _).bind fun _ _ => (yields_any _).bind fun x _ => yields_pure (Value.isSingle_number x)

/-- A magnitude is a single value. -/
theorem yields_isSingle_magnitude : (magnitude.call arguments).Yields Value.IsSingle := by
  refine yields_call_of_body fun settled => ?_
  have number : ∀ v : Value, (do
      let x ← Evaluation.ofExcept v.asNumber
      return .number x.magnitude : Evaluation Value).Yields Value.IsSingle := fun v =>
    (yields_any _).bind fun x _ => yields_pure (Value.isSingle_number _)
  cases settled with
  | nil => exact (yields_any _).bind fun v _ => number v
  | cons a rest => exact (yields_any _).bind fun v _ => number v

/-- A function of truth values is a single value. -/
theorem yields_isSingle_logical (name : String) (f : List Bool → Bool) :
    ((logical name f).call arguments).Yields Value.IsSingle :=
  yields_call_of_body fun _ => (yields_any _).bind fun truths _ => by
    dsimp only
    split
    · exact (yields_any _).bind fun _ _ => yields_pure (Value.isSingle_boolean _)
    · exact yields_pure (Value.isSingle_boolean _)

/-- A negation is a single value. -/
theorem yields_isSingle_negation : (negation.call arguments).Yields Value.IsSingle := by
  refine yields_call_of_body fun settled => ?_
  have opposite : ∀ v : Value, (do
      let b ← Evaluation.ofExcept v.asBoolean
      return .boolean !b : Evaluation Value).Yields Value.IsSingle := fun v =>
    (yields_any _).bind fun b _ => yields_pure (Value.isSingle_boolean _)
  cases settled with
  | nil => exact (yields_any _).bind fun v _ => opposite v
  | cons a rest => exact (yields_any _).bind fun v _ => opposite v

/-- A count is a single value. -/
theorem yields_isSingle_count : (count.call arguments).Yields Value.IsSingle :=
  yields_call_of_body fun _ => (yields_any _).bind fun _ _ => yields_pure (Value.isSingle_number _)

/-- Joined texts are a single value. -/
theorem yields_isSingle_concatenation : (concatenation.call arguments).Yields Value.IsSingle :=
  yields_call_of_body fun _ => (yields_any _).bind fun _ _ => yields_pure (Value.isSingle_text _)

/-- A call of a library function has a single value, unless rows and columns are swapped or one of two
branches is chosen. -/
theorem yields_isSingle_of_mem_library (listed : f ∈ library) (other : f ≠ transposition)
    (other' : f ≠ choice) : (f.call arguments).Yields Value.IsSingle := by
  simp only [library, List.mem_cons, List.not_mem_nil, or_false] at listed
  rcases listed with rfl | rfl | rfl | rfl | rfl | rfl | rfl | rfl | rfl | rfl | rfl | rfl | rfl
  · exact absurd rfl other
  · exact absurd rfl other'
  · exact yields_isSingle_logical _ _
  · exact yields_isSingle_logical _ _
  · exact yields_isSingle_negation
  · exact yields_isSingle_aggregate _ _
  · exact yields_isSingle_aggregate _ _
  · exact yields_isSingle_aggregate _ _
  · exact yields_isSingle_aggregate _ _
  · exact yields_isSingle_count
  · exact yields_isSingle_aggregate _ _
  · exact yields_isSingle_magnitude
  · exact yields_isSingle_concatenation

/-- Only a transposition has a format of its own. -/
theorem ownFormat_of_mem_library (listed : f ∈ library) (other : f ≠ transposition) :
    f.ownFormat = none := by
  simp only [library, List.mem_cons, List.not_mem_nil, or_false] at listed
  rcases listed with rfl | rfl | rfl | rfl | rfl | rfl | rfl | rfl | rfl | rfl | rfl | rfl | rfl
  · exact absurd rfl other
  all_goals rfl

/-- The result of a library function has one format, if any, unless rows and columns are swapped. -/
theorem format_of_mem_library (listed : f ∈ library) (other : f ≠ transposition)
    (formats : List FormatArgument) : ∃ format, f.format formats = .single format := by
  unfold Function.format
  rw [ownFormat_of_mem_library listed other]
  dsimp only
  split
  · exact ⟨_, rfl⟩
  · exact ⟨none, rfl⟩

/-- The format of a call of a library function goes with its value, unless rows and columns are
swapped. -/
theorem suits_of_mem_library (listed : f ∈ library) (other : f ≠ transposition)
    (formats : List FormatArgument) :
    (f.call arguments).Yields fun v => (f.format formats).Suits v := by
  by_cases chosen : f = choice
  · subst chosen
    exact fun v _ => .none
  · obtain ⟨format, single⟩ := format_of_mem_library listed other formats
    rw [single]
    exact fun v found => .single (yields_isSingle_of_mem_library listed other chosen v found)

/-- The first argument of a transposition is not settled. -/
theorem yields_head_settleFrom_transposition (a : Argument) (rest : List Argument) :
    (transposition.settleFrom 0 (a :: rest)).Yields fun settled => settled.head? = some a := by
  have range : (transposition.parameter? 0).map Parameter.shape ≠ some .single := by decide
  unfold settleFrom
  rw [if_neg range]
  refine (yields_pure (P := fun b => b = a) rfl).bind fun b same => ?_
  exact (yields_any _).bind fun others _ => yields_pure (congrArg some same)

end Function

namespace Expr

open Evaluation

variable {world : Surroundings}

/-- The format of a transposition is that of its argument, swapped. -/
theorem format_transposition (e : Expr) (rest : List Expr) :
    Function.transposition.format (formatArguments world (e :: rest)) =
      (e.format world).transposed := by
  show Function.transposedFormat (⟨e, fun _ => e.format world⟩ :: formatArguments world rest) = _
  unfold Function.transposedFormat ResultFormat.transposed
  dsimp only
  generalize e.format world = format
  -- Both tell an array of one format, any other array, and a single format apart.
  cases format with
  | single format => rfl
  | grid formats =>
    rcases formats with _ | ⟨_ | ⟨format, _ | ⟨_, _⟩⟩, _ | ⟨_, _⟩⟩ <;> rfl

/-- The format of a transposition goes with its value if that of its argument does. -/
theorem suits_transposition (e : Expr) (rest : List Expr)
    (suits : (e.evaluate world).Yields fun v => (e.format world).Suits v) :
    (Function.transposition.call (evaluateArguments world (e :: rest))).Yields fun v =>
      (Function.transposition.format (formatArguments world (e :: rest))).Suits v := by
  rw [format_transposition]
  refine Function.yields_call (fun short => by contradiction)
    (Function.yields_head_settleFrom_transposition _ _) fun settled head => ?_
  cases settled with
  | nil => contradiction
  | cons a others =>
    obtain rfl := Option.some.inj head
    exact (suits_transposed_block suits).bind fun block goes => yields_pure goes

/-- Where the formula is a transposition, the format of its argument goes with the value of the argument,
whatever formats cells show. -/
def TransposesSuitably (world : Surroundings) : Expr → Prop
  | .call name (e :: _) _ =>
    world.function? name = some Function.transposition →
      ∀ format, (e.evaluate world).Yields fun v => (e.format (world.withFormat format)).Suits v
  | _ => True

/-- The format of a call goes with its value, whatever formats cells show. -/
theorem suits_of_isCall {e : Expr} (call : e.isCall = true)
    (known : ∀ name f, world.function? name = some f → f ∈ Function.library)
    (transposes : e.TransposesSuitably world) (format : Position → Option String) :
    (e.evaluate world).Yields fun v => (e.format (world.withFormat format)).Suits v := by
  have blind : world.FormatBlind := fun name f found =>
    Function.formatBlind_of_mem_library (known name f found)
  have same : ∀ e : Expr, e.evaluate (world.withFormat format) = e.evaluate world :=
    evaluate_withFormat blind
  obtain ⟨name, arguments, span, rfl⟩ : ∃ name arguments span, e = .call name arguments span := by
    cases e with
    | call name arguments span => exact ⟨name, arguments, span, rfl⟩
    | _ => contradiction
  rw [← same]
  unfold evaluate Expr.format
  rw [Surroundings.function?_withFormat]
  cases found : world.function? name with
  | none => exact yields_throw _
  | some f =>
    dsimp only
    by_cases transposes' : f = Function.transposition
    · subst transposes'
      cases arguments with
      | nil => exact fun v _ => .none
      | cons e rest =>
        have inner := transposes found format
        rw [← same] at inner
        exact suits_transposition e rest inner
    · exact Function.suits_of_mem_library (known name f found) transposes' _

/-- The format of a call goes with what the call comes to, be it an error. -/
theorem suits_result_of_isCall {e : Expr} (call : e.isCall = true)
    (known : ∀ name f, world.function? name = some f → f ∈ Function.library)
    (transposes : e.TransposesSuitably world) (format : Position → Option String) :
    (e.format (world.withFormat format)).Suits (match (e.evaluate world).result with
      | .ok v => v
      | .error e => .error e) := by
  have goes := suits_of_isCall call known transposes format
  cases result : (e.evaluate world).result with
  | ok v => exact goes v result
  | error e => exact .error

end Expr

/-! ### Outcomes without formats -/

namespace Outcome

/-- The outcome without formats. -/
def plain : Outcome → Outcome
  | .single value _ => .single value none
  | .array values _ => .array values []

/-- A value keeps what it comes to if it is not the result of a call, whatever its format. -/
theorem plain_ofSingle_of_not_call (v : Value) (format : ResultFormat) :
    (ofSingle false v format).plain = .single v.orZero none := by
  cases format with
  | single format => rfl
  | grid formats => rfl

/-- An array that is not the result of a call comes to its entries, whatever its format. -/
theorem plain_ofArray_of_not_call (values : Grid Value) (format : ResultFormat) :
    (ofArray false values format).plain =
      .array (values.map fun row => row.map Value.orZero) [] := by
  unfold ofArray
  dsimp only
  split
  · rfl
  · rfl
  · split
    · rfl
    · rfl

/-- What a value comes to that is not the result of a call does not depend on its format. -/
theorem plain_ofResult_of_not_call {e : Expr} (other : e.isCall = false) (v : Value)
    (format : ResultFormat) : (ofResult e v format).plain = (ofResult e v .none).plain := by
  unfold ofResult
  rw [other]
  dsimp only
  split
  · rfl
  · split
    · rfl
    · split
      · rfl
      · rw [plain_ofArray_of_not_call, plain_ofArray_of_not_call]
  · rw [plain_ofSingle_of_not_call, plain_ofSingle_of_not_call]

/-- An array of more than one row or column is not cut to a single value. -/
theorem single?_of_larger {values : Grid Value} {rows columns : Nat} (tall : 0 < rows)
    (wide : 0 < columns) (larger : rows ≠ 1 ∨ columns ≠ 1) (sized : values.Sized rows columns) :
    (Value.array values).single? = .error values.extent := by
  have several := sized.only?_eq_none larger
  unfold Value.single?
  split
  · rename_i v same
    rw [Value.array.inj same] at several
    contradiction
  · rename_i same
    have length := sized.length
    rw [Value.array.inj same, List.length_nil] at length
    omega
  · rename_i rest same
    have even := sized.even [] (by rw [Value.array.inj same]; exact List.mem_cons_self)
    rw [List.length_nil] at even
    omega
  · rename_i rows' _ _ _ same
    rw [Value.array.inj same]
  · rename_i other
    exact absurd rfl (other values)

/-- What a larger array comes to. -/
theorem ofResult_of_larger {values : Grid Value} {rows columns : Nat} (tall : 0 < rows)
    (wide : 0 < columns) (larger : rows ≠ 1 ∨ columns ≠ 1) (sized : values.Sized rows columns)
    (e : Expr) (format : ResultFormat) :
    ofResult e (.array values) format =
      if e.isReference = true then
        fault "A range cannot be the result of a formula, a single value is expected."
      else ofArray e.isCall values (match format with
        | .grid [[format]] => .single format
        | format => format) := by
  have any : ¬ values.isEmpty = true := by
    rw [List.isEmpty_iff, ← List.length_eq_zero_iff, sized.length]
    exact Nat.ne_of_gt tall
  unfold ofResult
  rw [single?_of_larger tall wide larger sized]
  exact congrArg (fun rest => if e.isReference = true then
    fault "A range cannot be the result of a formula, a single value is expected." else rest)
    (if_neg any)

/-- An array comes to its entries where its formats have its size. -/
theorem plain_ofArray_of_sized (ofCall : Bool) {values : Grid Value}
    {formats : Grid (Option String)} {rows columns : Nat} (sized : values.Sized rows columns)
    (formatted : formats.Sized rows columns) (tall : 0 < rows) :
    (ofArray ofCall values (.grid formats)).plain = (ofArray ofCall values .none).plain := by
  have agrees : (formats.length == rows && formats.all (·.length == columns)) = true := by
    rw [Bool.and_eq_true, beq_iff_eq, List.all_eq_true]
    exact ⟨formatted.length, fun row listed => beq_iff_eq.mpr (formatted.even row listed)⟩
  unfold ofArray
  rw [sized.extent_eq tall]
  dsimp only
  rw [if_pos agrees]
  rfl

/-- What a value comes to does not depend on a format that goes with it. -/
theorem plain_ofResult {e : Expr} {v : Value} {format : ResultFormat}
    (suits : e.isCall = true → format.Suits v) :
    (ofResult e v format).plain = (ofResult e v .none).plain := by
  by_cases call : e.isCall = true
  · cases suits call with
    | none => rfl
    | error => rfl
    | single alone =>
      cases v with
      | array rows => exact absurd rfl (alone rows)
      | _ => rfl
    | @grid formats values rows columns tall wide larger sized formatted =>
      rw [ofResult_of_larger tall wide larger sized, ofResult_of_larger tall wide larger sized]
      have several := formatted.only?_eq_none larger
      have kept : (match ResultFormat.grid formats with
          | .grid [[format]] => .single format
          | format => format : ResultFormat) = .grid formats := by
        split
        · rename_i format same
          rw [ResultFormat.grid.inj same] at several
          contradiction
        · rfl
      rw [kept]
      split
      · rfl
      · exact plain_ofArray_of_sized e.isCall sized formatted tall
  · exact plain_ofResult_of_not_call (Bool.eq_false_iff.mpr call) v format

end Outcome

end Spreadsheet
