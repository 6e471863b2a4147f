import Spreadsheet.Function.Library
import Spreadsheet.Proofs.Evaluation.Rectangular

/-!
# Functions of rectangular arguments

An evaluation yields a property if its value has it whenever there is one. A function keeps values
rectangular if its body yields a rectangular value from rectangular arguments; then so does a call,
whichever arguments are settled first. Every function of the library keeps values rectangular.
-/
namespace Spreadsheet

namespace Evaluation

variable {α β : Type} {P : α → Prop} {Q : β → Prop} {x : Evaluation α} {f : α → Evaluation β}

/-- The value of an evaluation, if it has one, has a property. -/
def Yields (x : Evaluation α) (P : α → Prop) : Prop := ∀ a, x.result = .ok a → P a

/-- Every evaluation yields something. -/
theorem yields_any (x : Evaluation α) : x.Yields fun _ => True := fun _ _ => trivial

/-- An evaluation that makes no call yields what its value has. -/
theorem yields_pure {a : α} (holds : P a) : (pure a : Evaluation α).Yields P := fun b same => by
  obtain rfl := Except.ok.inj same
  exact holds

/-- An error yields anything. -/
theorem yields_throw (e : CellError) : (throw e : Evaluation α).Yields P :=
  fun _ same => by contradiction

/-- A result yields what its value has. -/
theorem yields_ofExcept {result : Except CellError α} (holds : ∀ a, result = .ok a → P a) :
    (ofExcept result).Yields P := holds

/-- One of two evaluations yields what both do. -/
theorem yields_ite {c : Prop} [Decidable c] {y : Evaluation α} (first : x.Yields P)
    (second : y.Yields P) : (if c then x else y).Yields P := by
  split
  · exact first
  · exact second

/-- The result of an evaluation followed by another one. -/
theorem result_bind (x : Evaluation α) (f : α → Evaluation β) :
    (x >>= f).result =
      match x.result with
      | .ok a => (f a).result
      | .error e => .error e := by
  show (x.run >>= ExceptT.bindCont f).result = _
  rw [Traced.result_bind]
  unfold result
  cases x.run.result <;> rfl

/-- What follows yields may rely on what comes first yields. -/
theorem Yields.bind (first : x.Yields P) (rest : ∀ a, P a → (f a).Yields Q) :
    (x >>= f).Yields Q := by
  intro b found
  rw [result_bind] at found
  cases ended : x.result with
  | error e =>
    rw [ended] at found
    contradiction
  | ok a =>
    rw [ended] at found
    exact rest a (first a ended) b found

/-- Running an evaluation for its result yields what the evaluation yields. -/
theorem Yields.observe (first : x.Yields P) :
    (observe x).Yields fun result => ∀ a, result = .ok a → P a := by
  intro result found a same
  subst same
  exact first a (Except.ok.inj found)

end Evaluation

/-- A value cut to a single one stays rectangular. -/
theorem Value.Rectangular.asSingle {v w : Value} (shape : v.Rectangular)
    (found : v.asSingle = .ok w) : w.Rectangular := by
  unfold Value.asSingle at found
  split at found
  · rename_i u cut
    obtain rfl := Except.ok.inj found
    exact shape.single? cut
  · contradiction

namespace Argument

open Evaluation

variable {a : Argument}

/-- Whatever an argument is read as is rectangular. -/
structure Rectangular (a : Argument) : Prop where
  literal : ∀ v, a.literal? = some v → v.Rectangular
  settled : ∀ v, a.settled = some v → v.Rectangular
  outcome : a.outcome.Yields Value.Rectangular
  covered : ∀ block, a.covered () = .ok block → (Value.array block.values).Rectangular

/-- The value of an argument is rectangular. -/
theorem Rectangular.value (shape : a.Rectangular) : a.value.Yields Value.Rectangular := by
  unfold Argument.value
  split
  · rename_i v found
    refine yields_pure ?_
    cases literal : a.literal? with
    | none =>
      rw [literal] at found
      exact shape.settled v found
    | some w =>
      rw [literal] at found
      obtain rfl := Option.some.inj found
      exact shape.literal w literal
  · exact shape.outcome

/-- Settling an argument keeps it rectangular. -/
theorem Rectangular.settle (shape : a.Rectangular) : a.settle.Yields Rectangular := by
  unfold Argument.settle
  split
  · exact yields_pure shape
  · refine shape.outcome.observe.bind fun result found => ?_
    split
    · exact yields_pure shape
    · rename_i v
      refine (yields_ofExcept fun w cut => (found v rfl).asSingle cut).bind fun w rectangular => ?_
      refine yields_pure ⟨shape.literal, fun u same => ?_, shape.outcome, shape.covered⟩
      obtain rfl := Option.some.inj same
      exact rectangular

/-- The cells of an argument make a rectangular array. -/
theorem Rectangular.block (shape : a.Rectangular) :
    a.block.Yields fun block => (Value.array block.values).Rectangular := by
  unfold Argument.block
  split
  · exact yields_ofExcept shape.covered
  · refine shape.value.bind fun v rectangular => yields_pure ?_
    dsimp only
    split
    · exact rectangular
    · exact rectangular.alone

end Argument

namespace Function

open Evaluation

variable {f : Function} {arguments : List Argument}

/-- The body of the function gives a rectangular value if its arguments are rectangular. -/
def KeepsRectangular (f : Function) : Prop :=
  ∀ arguments, (∀ a ∈ arguments, a.Rectangular) → (f.body arguments).Yields Value.Rectangular

/-- Settling arguments keeps what settling one of them keeps. -/
theorem yields_settleFrom {Given : Argument → Prop} (f : Function) (index : Nat)
    (kept : ∀ a, Given a → a.settle.Yields Given) (given : ∀ a ∈ arguments, Given a) :
    (f.settleFrom index arguments).Yields fun settled => ∀ a ∈ settled, Given a := by
  induction arguments generalizing index with
  | nil => exact yields_pure given
  | cons a rest ih =>
    have head := given a List.mem_cons_self
    have tail := ih (index + 1) fun c later => given c (List.mem_cons_of_mem _ later)
    have rest : ∀ b : Argument, Given b → (do
        let others ← f.settleFrom (index + 1) rest
        return b :: others : Evaluation (List Argument)).Yields
          fun settled => ∀ a ∈ settled, Given a := fun b settled =>
      tail.bind fun others holds => yields_pure (List.forall_mem_cons.mpr ⟨settled, holds⟩)
    exact yields_ite ((kept a head).bind rest) ((yields_pure head).bind rest)

/-- A call yields what the body yields from what the arguments are settled to. -/
theorem yields_call {Settled : List Argument → Prop} {P : Value → Prop}
    (whole : f.shortCircuit = true → Settled arguments)
    (settled : (f.settleFrom 0 arguments).Yields Settled)
    (body : ∀ settled, Settled settled → (f.body settled).Yields P) : (f.call arguments).Yields P := by
  have run : ∀ settled : List Argument, Settled settled → (do
      record f.name
      f.body settled : Evaluation Value).Yields P := fun settled holds =>
    (yields_any (record f.name)).bind fun _ _ => body settled holds
  have called : (do
      let settled ← if f.shortCircuit then pure arguments else f.settleFrom 0 arguments
      record f.name
      f.body settled : Evaluation Value).Yields P := by
    by_cases short : f.shortCircuit = true
    · rw [if_pos short]
      exact (yields_pure (whole short)).bind run
    · rw [if_neg short]
      exact settled.bind run
  have refused : ∀ (e : CellError) (rest : PUnit → Evaluation Value),
      (throw e >>= rest).Yields P := fun e rest =>
    (yields_throw (P := fun _ => False) e).bind fun _ never => never.elim
  exact yields_ite (refused _ _) (yields_ite (refused _ _) called)

/-- A call of a function that keeps values rectangular. -/
theorem KeepsRectangular.call (keeps : f.KeepsRectangular)
    (shapes : ∀ a ∈ arguments, a.Rectangular) : (f.call arguments).Yields Value.Rectangular :=
  yields_call (fun _ => shapes)
    (yields_settleFrom f 0 (fun _ shape => shape.settle) shapes) keeps

/-! ### The library -/

/-- Aggregates are numbers. -/
theorem keepsRectangular_aggregate (name : String) (f : List Number → Except CellError Number) :
    (aggregate name f).KeepsRectangular := fun _ _ =>
  (yields_any _).bind fun _ _ => (yields_any _).bind fun x _ =>
    yields_pure (Value.isSingle_number x).rectangular

/-- A count is a number. -/
theorem keepsRectangular_count : count.KeepsRectangular := fun _ _ =>
  (yields_any _).bind fun _ _ => yields_pure (Value.isSingle_number _).rectangular

/-- A magnitude is a number. -/
theorem keepsRectangular_magnitude : magnitude.KeepsRectangular := by
  have run : ∀ v : Value, (do
      let x ← Evaluation.ofExcept v.asNumber
      return .number x.magnitude : Evaluation Value).Yields Value.Rectangular := fun v =>
    (yields_any _).bind fun _ _ => yields_pure (Value.isSingle_number _).rectangular
  intro arguments _
  cases arguments with
  | nil => exact (yields_any _).bind fun v _ => run v
  | cons a rest => exact (yields_any _).bind fun v _ => run v

/-- A function of truth values gives one. -/
theorem keepsRectangular_logical (name : String) (f : List Bool → Bool) :
    (logical name f).KeepsRectangular := by
  intro arguments _
  refine (yields_any _).bind fun truths _ => ?_
  exact yields_ite ((yields_throw (P := fun _ => False) _).bind fun _ never => never.elim)
    (yields_pure (Value.isSingle_boolean _).rectangular)

/-- An opposite is a truth value. -/
theorem keepsRectangular_negation : negation.KeepsRectangular := by
  have run : ∀ v : Value, (do
      let b ← Evaluation.ofExcept v.asBoolean
      return .boolean !b : Evaluation Value).Yields Value.Rectangular := fun v =>
    (yields_any _).bind fun _ _ => yields_pure (Value.isSingle_boolean _).rectangular
  intro arguments _
  cases arguments with
  | nil => exact (yields_any _).bind fun v _ => run v
  | cons a rest => exact (yields_any _).bind fun v _ => run v

/-- Joined texts are a text. -/
theorem keepsRectangular_concatenation : concatenation.KeepsRectangular := fun _ _ =>
  (yields_any _).bind fun _ _ => yields_pure (Value.isSingle_text _).rectangular

/-- A choice is one of its branches. -/
theorem keepsRectangular_choice : choice.KeepsRectangular := by
  intro arguments shapes
  have taken : ∀ index : Nat, (branch arguments[index]?).Yields Value.Rectangular := by
    intro index
    unfold branch
    split
    · exact yields_pure (Value.isSingle_boolean _).rectangular
    · rename_i a found
      exact yields_ite (yields_pure (Value.isSingle_number _).rectangular)
        (shapes a (List.mem_of_getElem? found)).value
  have run : ∀ v : Value, (do
      let condition ← Evaluation.ofExcept v.asBoolean
      branch arguments[if condition then 1 else 2]? : Evaluation Value).Yields
        Value.Rectangular := fun v => (yields_any _).bind fun _ _ => taken _
  cases arguments with
  | nil => exact (yields_any _).bind fun v _ => run v
  | cons a rest => exact (yields_any _).bind fun v _ => run v

/-- Swapping the rows and columns of an even grid gives rows of the length of its columns. -/
theorem even_transpose {α : Type} {grid : Grid α} {width : Nat} (even : grid.Even width) :
    grid.transpose.Even grid.length := by
  intro row listed
  obtain ⟨column, inside, rfl⟩ := List.mem_map.mp listed
  have any : grid ≠ [] := by
    rintro rfl
    contradiction
  rw [even.extent_eq any, List.mem_range] at inside
  rw [List.length_filterMap_eq_countP, List.countP_eq_length]
  intro row member
  simp [even row member, inside]

/-- Swapping rows and columns keeps an array rectangular. -/
theorem rectangular_transpose {values : Grid Value} (shape : (Value.array values).Rectangular) :
    (Value.array values.transpose).Rectangular := by
  obtain ⟨width, wide, even, entries⟩ := shape.rows_of
  by_cases none : values = []
  · subst none
    exact shape
  · refine .array (List.length_pos_iff.mpr none) (even_transpose even) ?_
    intro row listed v member
    obtain ⟨column, _, rfl⟩ := List.mem_map.mp listed
    obtain ⟨source, there, entry⟩ := List.mem_filterMap.mp member
    exact entries source there v (List.mem_of_getElem? entry)

/-- Swapping rows and columns keeps values rectangular. -/
theorem keepsRectangular_transposition : transposition.KeepsRectangular := by
  intro arguments shapes
  have run : ∀ block : CellBlock, (Value.array block.values).Rectangular →
      (pure ((block.values.only?).getD (.array block.values.transpose)) : Evaluation Value).Yields
        Value.Rectangular := by
    intro block shape
    refine yields_pure ?_
    cases found : block.values.only? with
    | none => exact rectangular_transpose shape
    | some v =>
      rw [Grid.eq_of_only? found] at shape
      exact shape.entry List.mem_cons_self List.mem_cons_self
  cases arguments with
  | nil =>
    refine (yields_pure ?_).bind run
    exact .array Nat.one_pos (fun _ none => by contradiction) fun _ none => by contradiction
  | cons a rest => exact (shapes a List.mem_cons_self).block.bind run

/-- The functions of the library keep values rectangular. -/
theorem keepsRectangular_of_mem_library (listed : f ∈ library) : f.KeepsRectangular := by
  simp only [library, List.mem_cons, List.not_mem_nil, or_false] at listed
  rcases listed with rfl | rfl | rfl | rfl | rfl | rfl | rfl | rfl | rfl | rfl | rfl | rfl | rfl
  · exact keepsRectangular_transposition
  · exact keepsRectangular_choice
  · exact keepsRectangular_logical _ _
  · exact keepsRectangular_logical _ _
  · exact keepsRectangular_negation
  · exact keepsRectangular_aggregate _ _
  · exact keepsRectangular_aggregate _ _
  · exact keepsRectangular_aggregate _ _
  · exact keepsRectangular_aggregate _ _
  · exact keepsRectangular_count
  · exact keepsRectangular_aggregate _ _
  · exact keepsRectangular_magnitude
  · exact keepsRectangular_concatenation

end Function

namespace FunctionTable

variable {table : FunctionTable} {f : Function} {family name : String}

/-- A function that a workbook knows was given to it, or is one of the library. -/
theorem mem_of_resolve? (found : table.resolve? family name = some f) :
    f ∈ table.functions ∨ f ∈ Function.library := by
  unfold resolve? at found
  rcases Option.or_eq_some_iff.mp ((Option.orElse_eq_or).symm.trans found) with own | ⟨_, shared⟩
  · exact .inl (List.mem_of_find?_eq_some own)
  · exact .inr (List.mem_of_find?_eq_some shared)

/-- A function that a workbook knows keeps values rectangular if those it was given do. -/
theorem keepsRectangular_of_resolve? (given : ∀ g ∈ table.functions, g.KeepsRectangular)
    (found : table.resolve? family name = some f) : f.KeepsRectangular :=
  (mem_of_resolve? found).elim (given f) Function.keepsRectangular_of_mem_library

end FunctionTable

end Spreadsheet
