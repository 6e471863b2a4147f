import Spreadsheet.CellError

/-!
# Evaluations and the calls they make

Evaluating a formula gives a value or an error, and on the way runs the bodies of functions. An
evaluation records the names of the functions it runs, in order, beside its result: an argument
that is evaluated twice shows up twice.
-/
namespace Spreadsheet

/-- A result and the names of the functions that ran to obtain it, in order. -/
structure Traced (α : Type) where
  result : α
  calls : List String

namespace Traced

variable {α β : Type}

instance : Monad Traced where
  pure result := ⟨result, []⟩
  bind x f := ⟨(f x.result).result, x.calls ++ (f x.result).calls⟩

@[simp] theorem result_pure (a : α) : (pure a : Traced α).result = a := rfl

@[simp] theorem calls_pure (a : α) : (pure a : Traced α).calls = [] := rfl

@[simp] theorem result_bind (x : Traced α) (f : α → Traced β) :
    (x >>= f).result = (f x.result).result := rfl

@[simp] theorem calls_bind (x : Traced α) (f : α → Traced β) :
    (x >>= f).calls = x.calls ++ (f x.result).calls := rfl

instance : LawfulMonad Traced :=
  LawfulMonad.mk' Traced
    (fun x => by
      show (⟨_, _⟩ : Traced _) = _
      simp)
    (fun a f => by
      show (⟨_, _⟩ : Traced _) = _
      simp)
    (fun x f g => by
      show (⟨_, _⟩ : Traced _) = ⟨_, _⟩
      simp)

end Traced

/-- A computation of a value that may end in an error; the calls made before the error stay
recorded. -/
abbrev Evaluation := ExceptT CellError Traced

namespace Evaluation

variable {α : Type}

/-- The evaluation that makes no call. -/
def ofExcept (result : Except CellError α) : Evaluation α := ExceptT.mk (pure result)

/-- Run an evaluation for its result, an error being a result like any other. -/
def observe (x : Evaluation α) : Evaluation (Except CellError α) := ExceptT.lift x.run

/-- Record the call of a function. -/
def record (name : String) : Evaluation Unit := ExceptT.mk ⟨.ok (), [name]⟩

/-- The result of an evaluation. -/
def result (x : Evaluation α) : Except CellError α := x.run.result

/-- The calls of an evaluation, in order. -/
def calls (x : Evaluation α) : List String := x.run.calls

end Evaluation

end Spreadsheet
