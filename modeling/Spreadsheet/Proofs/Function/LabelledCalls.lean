import Spreadsheet.Proofs.Function.SettledArguments

/-!
# Labelled calls

To tell the calls of a formula apart, each is recorded under a label of its own instead of the name of its
function. A call of a function that reads by handles evaluates its arguments once each, unless the body
runs and one of them repeats; then the bodies that ran for that argument run twice.
-/
namespace Spreadsheet

namespace Function

open Evaluation

variable {f : Function} {arguments settled : List Argument} {a : Argument} {index : Nat} {label x : String}
  {rename : String → String}

/-- What happens before the body runs: check the number of arguments, and settle what is taken as a single
value. -/
def prepare (f : Function) (arguments : List Argument) : Evaluation (List Argument) :=
  if arguments.length < f.leastArguments then
    throw (f.arityError f.leastArguments "minimum" arguments.length)
  else if !f.variadic && decide (f.parameters.length < arguments.length) then
    throw (f.arityError f.parameters.length "maximum" arguments.length)
  else if f.shortCircuit then pure arguments
  else f.settleFrom 0 arguments

/-- A call that is recorded under a label. -/
def callAs (f : Function) (label : String) (arguments : List Argument) : Evaluation Value := do
  let settled ← f.prepare arguments
  Evaluation.record label
  f.body settled

/-- A call is recorded under the name of the function. -/
theorem call_eq_callAs (f : Function) (arguments : List Argument) :
    f.call arguments = f.callAs f.name arguments := by
  unfold call callAs prepare
  by_cases few : arguments.length < f.leastArguments
  · simp only [few, if_true]
    rfl
  · by_cases many : (!f.variadic && decide (f.parameters.length < arguments.length)) = true
    · simp only [few, many, if_true, if_false]
      rfl
    · simp only [few, many, Bool.false_eq_true, if_false]
      cases f.shortCircuit <;> rfl

/-- Before the body runs, there is an error for the number of arguments, or arguments are left alone or
settled. -/
theorem prepare_cases (f : Function) (arguments : List Argument) :
    (∃ e, f.prepare arguments = throw e) ∨
      f.shortCircuit = true ∧ f.prepare arguments = pure arguments ∨
        f.shortCircuit = false ∧ f.prepare arguments = f.settleFrom 0 arguments := by
  unfold prepare
  split
  · exact .inl ⟨_, rfl⟩
  · split
    · exact .inl ⟨_, rfl⟩
    · cases direct : f.shortCircuit with
      | true => exact .inr (.inl ⟨rfl, rfl⟩)
      | false => exact .inr (.inr ⟨rfl, rfl⟩)

/-- Before the body runs, each argument is evaluated at most once. -/
theorem evaluatedOnce_prepare (fresh : ∀ a ∈ arguments, a.settled = none) :
    EvaluatedOnce arguments (f.prepare arguments).calls := by
  rcases f.prepare_cases arguments with ⟨e, refused⟩ | ⟨_, left⟩ | ⟨_, settled⟩
  · rw [refused]
    exact .nil arguments
  · rw [left]
    exact .nil arguments
  · rw [settled]
    exact evaluatedOnce_settleFrom fresh

/-- Each argument that is left to the body is free to read, or it is what it was before. -/
theorem value_prepare (fresh : ∀ a ∈ arguments, a.settled = none)
    (done : (f.prepare arguments).result = .ok settled) :
    ∀ a ∈ settled, a.value.calls = [] ∨ a ∈ arguments := by
  rcases f.prepare_cases arguments with ⟨e, refused⟩ | ⟨_, left⟩ | ⟨_, settled⟩
  · rw [refused] at done
    contradiction
  · rw [left] at done
    obtain rfl := Except.ok.inj done
    exact fun a among => .inr among
  · rw [settled] at done
    exact value_settleFrom fresh done

/-- Reading some of the arguments that are left to the body evaluates each at most once, what was evaluated
before included, unless one repeats. -/
theorem evaluatedOnce_prepare_of_read (fresh : ∀ a ∈ arguments, a.settled = none)
    (done : (f.prepare arguments).result = .ok settled)
    (never : ∀ j a, arguments[j]? = some a → ¬f.Repeats j a) {read : List Argument}
    (inside : read.Sublist settled) :
    EvaluatedOnce arguments ((f.prepare arguments).calls ++ callsOf read) := by
  rcases f.prepare_cases arguments with ⟨e, refused⟩ | ⟨_, left⟩ | ⟨direct, settled⟩
  · rw [refused] at done
    contradiction
  · rw [left] at done ⊢
    obtain rfl := Except.ok.inj done
    exact .of_sublist inside
  · rw [settled] at done ⊢
    exact evaluatedOnce_of_read direct fresh done (fun j a found => by
      rw [Nat.zero_add]
      exact never j a found) inside

/-- An argument that repeats is evaluated before the body runs, and left to it as it is. -/
theorem prepare_of_repeats (fresh : ∀ a ∈ arguments, a.settled = none)
    (done : (f.prepare arguments).result = .ok settled) (found : arguments[index]? = some a)
    (repeats : f.Repeats index a) :
    settled[index]? = some a ∧ a.value.calls.Sublist (f.prepare arguments).calls := by
  rcases f.prepare_cases arguments with ⟨e, refused⟩ | ⟨indirect, _⟩ | ⟨_, settled⟩
  · rw [refused] at done
    contradiction
  · rw [repeats.1.1] at indirect
    contradiction
  · rw [settled] at done ⊢
    exact settleFrom_of_repeats fresh done found (by rwa [Nat.zero_add])

/-- What happens before the body runs, with other names of calls. -/
theorem prepare_renamed (f : Function) (arguments : List Argument) :
    f.prepare (arguments.map (Argument.renamed rename)) =
      List.map (Argument.renamed rename) <$> (f.prepare arguments).renamed rename := by
  unfold prepare
  rw [List.length_map]
  split
  · rfl
  · split
    · rfl
    · split
      · rfl
      · exact f.settleFrom_renamed 0 arguments

/-- A call makes the calls before the body runs, and if it does, the label and the calls of the body. -/
theorem calls_callAs (f : Function) (label : String) (arguments : List Argument) :
    (f.callAs label arguments).calls = (f.prepare arguments).calls ++
      match (f.prepare arguments).result with
      | .ok settled => label :: (f.body settled).calls
      | .error _ => [] := by
  rw [callAs, calls_bind]
  cases (f.prepare arguments).result <;> rfl

/-- A call with other names of calls. -/
theorem ReadsByHandles.callAs_renamed (handles : f.ReadsByHandles) (label : String)
    (arguments : List Argument) :
    (f.callAs label arguments).renamed rename =
      f.callAs (rename label) (arguments.map (Argument.renamed rename)) := by
  unfold callAs
  rw [prepare_renamed, renamed_bind, bind_map_left]
  refine bind_congr fun settled => ?_
  rw [handles.renamed, renamed_bind]
  rfl

section

variable (handles : f.ReadsByHandles) (fresh : ∀ a ∈ arguments, a.settled = none)

include handles fresh

/-- What runs in a call is its body, or it runs for one of the arguments, and then all does that runs for
this argument. -/
theorem ReadsByHandles.mem_calls_callAs (ran : x ∈ (f.callAs label arguments).calls) :
    x = label ∨ ∃ a ∈ arguments, x ∈ a.value.calls ∧
      a.value.calls.Subperm (f.callAs label arguments).calls := by
  rw [calls_callAs] at ran ⊢
  rcases List.mem_append.mp ran with before | within
  · obtain ⟨a, listed, own, all⟩ := (evaluatedOnce_prepare fresh).exists_of_mem before
    exact .inr ⟨a, listed, own, all.trans (List.sublist_append_left _ _).subperm⟩
  · cases done : (f.prepare arguments).result with
    | error e =>
      rw [done] at within
      exact absurd within List.not_mem_nil
    | ok settled =>
      rw [done] at within
      rcases List.mem_cons.mp within with rfl | within
      · exact .inl rfl
      · obtain ⟨read, inside, calls⟩ := handles.reads settled
        rw [calls] at within
        obtain ⟨a, among, own⟩ := List.mem_flatMap.mp within
        rcases value_prepare fresh done a (inside.subset among) with silent | listed
        · rw [silent] at own
          exact absurd own List.not_mem_nil
        · refine .inr ⟨a, listed, own, ?_⟩
          dsimp only
          rw [calls]
          exact (((sublist_callsOf among).cons label).trans (List.sublist_append_right _ _)).subperm

/-- Unless the body runs and an argument repeats, a call runs its body and evaluates its arguments at most
once each. -/
theorem ReadsByHandles.callAs_once
    (never : label ∈ (f.callAs label arguments).calls → ∀ j a, arguments[j]? = some a → ¬f.Repeats j a) :
    ∃ calls, EvaluatedOnce arguments calls ∧
      ((f.callAs label arguments).calls = calls ∨ (f.callAs label arguments).calls.Perm (label :: calls)) := by
  rw [calls_callAs] at never ⊢
  cases done : (f.prepare arguments).result with
  | error e => exact ⟨_, evaluatedOnce_prepare fresh, .inl (List.append_nil _)⟩
  | ok settled =>
    rw [done] at never
    obtain ⟨read, ⟨read', same, inside⟩, calls⟩ := handles.reads settled
    have once := evaluatedOnce_prepare_of_read fresh done
      (never (List.mem_append_right _ List.mem_cons_self)) inside
    have reordered : (callsOf read).Perm (callsOf read') := same.symm.flatMap_right _
    dsimp only
    rw [calls]
    exact ⟨_, once.perm (reordered.append_left _), .inr List.perm_middle⟩

end

/-- When the body of a function that meets errors runs and an argument repeats, what runs for the argument
runs twice. -/
theorem MeetsErrors.callAs_of_repeats (meets : f.MeetsErrors) (fresh : ∀ a ∈ arguments, a.settled = none)
    (ran : label ∈ (f.callAs label arguments).calls) (own : ∀ a ∈ arguments, label ∉ a.value.calls)
    (found : arguments[index]? = some a) (repeats : f.Repeats index a) :
    (a.value.calls ++ a.value.calls).Sublist (f.callAs label arguments).calls := by
  rw [calls_callAs] at ran ⊢
  cases done : (f.prepare arguments).result with
  | error e =>
    rw [done] at ran
    dsimp only at ran
    rw [List.append_nil] at ran
    obtain ⟨b, listed, called, _⟩ := (evaluatedOnce_prepare fresh).exists_of_mem ran
    exact absurd called (own b listed)
  | ok settled =>
    obtain ⟨there, before⟩ := prepare_of_repeats fresh done found repeats
    have again := meets settled index a there repeats.1 repeats.2.1
    exact before.append (again.cons label)

end Function

end Spreadsheet
