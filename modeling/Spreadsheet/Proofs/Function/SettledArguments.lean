import Spreadsheet.Proofs.Function.Readings

/-!
# Settled arguments

Before the body of a function runs, the arguments that it takes as single values are evaluated and kept. One
that fails is not: the body evaluates it again. Then each body that ran for the argument runs twice, and
otherwise none does.
-/
namespace Spreadsheet

namespace Evaluation

variable {α β : Type} {x : Evaluation α} {f : α → Evaluation β}

/-- What ends with a value has got there step by step. -/
theorem exists_of_result_bind {b : β} (found : (x >>= f).result = .ok b) :
    ∃ a, x.result = .ok a ∧ (f a).result = .ok b ∧ (x >>= f).calls = x.calls ++ (f a).calls := by
  rw [result_bind] at found
  rw [calls_bind]
  cases ended : x.result with
  | error e =>
    rw [ended] at found
    contradiction
  | ok a =>
    rw [ended] at found
    exact ⟨a, rfl, found, rfl⟩

end Evaluation

open Evaluation

namespace Argument

variable {a a' : Argument} {v : Value}

/-- What settling an argument makes of its outcome. -/
def keep (a : Argument) : Except CellError Value → Evaluation Argument
  | .error _ => pure a
  | .ok v => do
    let w ← Evaluation.ofExcept v.asSingle
    return { a with settled := some w }

/-- Settling an argument that is no literal evaluates it. -/
theorem settle_of_literal? (evaluated : a.literal? = none) : a.settle = observe a.outcome >>= a.keep := by
  rw [settle, evaluated]
  refine bind_congr fun result => ?_
  cases result <;> rfl

/-- Keeping what was found runs nothing. -/
theorem calls_keep (a : Argument) (result : Except CellError Value) : (a.keep result).calls = [] := by
  cases result with
  | error e => rfl
  | ok v => exact calls_bind_of_silent (Evaluation.ofExcept v.asSingle) fun _ => rfl

/-- A kept value is free to read. -/
theorem calls_of_keep (evaluated : a.literal? = none) (done : (a.keep (.ok v)).result = .ok a') :
    a'.value.calls = [] := by
  obtain ⟨w, _, same, _⟩ := exists_of_result_bind (x := Evaluation.ofExcept v.asSingle) done
  obtain rfl := Except.ok.inj same
  unfold value
  rw [show ({ a with settled := some w } : Argument).literal? = none from evaluated]
  rfl

/-- Settling an argument leaves a literal, leaves an argument that fails, keeps a single value, or ends in
an error. Each but a literal is evaluated. -/
theorem settle_cases (fresh : a.settled = none) :
    a.settle = pure a ∧ a.value.calls = [] ∧ ¬a.Fails ∨
      a.settle.calls = a.value.calls ∧
        (a.Fails ∧ a.settle.result = .ok a ∨
          ¬a.Fails ∧ ∀ a', a.settle.result = .ok a' → a'.value.calls = []) := by
  unfold Fails
  cases literal : a.literal? with
  | some v =>
    have value : a.value = pure v := by
      unfold value
      rw [literal]
      rfl
    rw [value]
    exact .inl ⟨by rw [settle, literal]; rfl, rfl, fun ⟨_, failed⟩ => by contradiction⟩
  | none =>
    have value : a.value = a.outcome := by
      unfold value
      rw [literal, fresh]
      rfl
    rw [value, settle_of_literal? literal, result_bind]
    refine .inr ⟨(calls_bind_of_silent _ a.calls_keep).trans (calls_observe _), ?_⟩
    show _ ∨ _ ∧ ∀ a', (a.keep a.outcome.result).result = .ok a' → _
    cases ended : a.outcome.result with
    | error e =>
      refine .inl ⟨⟨e, rfl⟩, ?_⟩
      show (a.keep a.outcome.result).result = _
      rw [ended]
      rfl
    | ok v => exact .inr ⟨fun ⟨_, failed⟩ => by contradiction, fun a' => calls_of_keep literal⟩

end Argument

namespace Function

variable {f : Function} {arguments rest settled read : List Argument} {a a' : Argument} {index : Nat}
  {label : String} {rename : String → String}

/-- The bodies that ran for the argument run again: it fails when it is settled, and it has run some. -/
def Repeats (f : Function) (index : Nat) (a : Argument) : Prop :=
  f.Settles index ∧ a.Fails ∧ a.value.calls ≠ []

/-! ### One argument -/

/-- What becomes of an argument before the body runs. -/
def settleAt (f : Function) (index : Nat) (a : Argument) : Evaluation Argument :=
  if (f.parameter? index).map Parameter.shape = some .single then a.settle else pure a

/-- Arguments are settled one after the other. -/
theorem settleFrom_cons (f : Function) (index : Nat) (a : Argument) (rest : List Argument) :
    f.settleFrom index (a :: rest) = (do
      let a ← f.settleAt index a
      let rest ← f.settleFrom (index + 1) rest
      return a :: rest) := by
  rw [settleFrom, settleAt]
  split <;> rfl

/-- Settling an argument evaluates it at most once. -/
theorem calls_settleAt (fresh : a.settled = none) :
    (f.settleAt index a).calls = [] ∨ (f.settleAt index a).calls = a.value.calls := by
  unfold settleAt
  split
  · rcases Argument.settle_cases fresh with ⟨literal, _⟩ | ⟨calls, _⟩
    · exact .inl (by rw [literal]; rfl)
    · exact .inr calls
  · exact .inl rfl

/-- A settled argument is free to read, or it is what it was before. -/
theorem value_settleAt (fresh : a.settled = none) (done : (f.settleAt index a).result = .ok a') :
    a'.value.calls = [] ∨ a' = a := by
  unfold settleAt at done
  split at done
  · rcases Argument.settle_cases fresh with ⟨literal, _⟩ | ⟨_, ⟨_, same⟩ | ⟨_, kept⟩⟩
    · rw [literal] at done
      exact .inr (Except.ok.inj done).symm
    · rw [same] at done
      exact .inr (Except.ok.inj done).symm
    · exact .inl (kept a' done)
  · exact .inr (Except.ok.inj done).symm

/-- An argument is evaluated when it is settled or when it is read, unless it repeats. -/
theorem settleAt_once (fresh : a.settled = none) (direct : f.shortCircuit = false)
    (done : (f.settleAt index a).result = .ok a') (once : ¬f.Repeats index a) :
    a'.value.calls = [] ∨ (f.settleAt index a).calls = [] ∧ a' = a := by
  unfold settleAt at done ⊢
  split at done
  · rename_i single
    rcases Argument.settle_cases fresh with ⟨literal, _⟩ | ⟨_, ⟨fails, same⟩ | ⟨_, kept⟩⟩
    · rw [literal] at done
      exact .inr ⟨by rw [if_pos single, literal]; rfl, (Except.ok.inj done).symm⟩
    · rw [same] at done
      obtain rfl := Except.ok.inj done
      by_contra other
      exact once ⟨⟨direct, single⟩, fails, fun silent => other (.inl silent)⟩
    · exact .inl (kept a' done)
  · rename_i range
    exact .inr ⟨by rw [if_neg range]; rfl, (Except.ok.inj done).symm⟩

/-- An argument that repeats is evaluated and left as it is. -/
theorem settleAt_of_repeats (fresh : a.settled = none) (repeats : f.Repeats index a) :
    (f.settleAt index a).result = .ok a ∧ (f.settleAt index a).calls = a.value.calls := by
  obtain ⟨⟨_, single⟩, fails, loud⟩ := repeats
  unfold settleAt
  rw [if_pos single]
  rcases Argument.settle_cases fresh with ⟨_, silent, _⟩ | ⟨calls, ⟨_, same⟩ | ⟨succeeds, _⟩⟩
  · exact absurd silent loud
  · exact ⟨same, calls⟩
  · exact absurd fails succeeds

/-- A settled argument has the other names. -/
theorem settleAt_renamed (f : Function) (index : Nat) (a : Argument) :
    f.settleAt index (a.renamed rename) =
      Argument.renamed rename <$> (f.settleAt index a).renamed rename := by
  unfold settleAt
  split
  · exact a.settle_renamed
  · exact (map_pure ..).symm

/-! ### All arguments -/

/-- The calls are those of some of the arguments, each of which is evaluated once. -/
def EvaluatedOnce (arguments : List Argument) (calls : List String) : Prop :=
  ∃ asked : List Argument, asked.Sublist arguments ∧ calls.Perm (callsOf asked)

namespace EvaluatedOnce

variable {calls others : List String}

/-- Reading some of the arguments evaluates each once. -/
theorem of_sublist (inside : read.Sublist arguments) : EvaluatedOnce arguments (callsOf read) :=
  ⟨read, inside, List.Perm.refl _⟩

/-- Reading one of the arguments evaluates it once. -/
theorem of_mem (listed : a ∈ arguments) : EvaluatedOnce arguments a.value.calls := by
  rw [← callsOf_singleton]
  exact of_sublist (List.singleton_sublist.mpr listed)

/-- No argument need be evaluated. -/
theorem nil (arguments : List Argument) : EvaluatedOnce arguments [] := of_sublist (List.nil_sublist _)

/-- The order of calls does not matter. -/
theorem perm (once : EvaluatedOnce arguments calls) (same : others.Perm calls) :
    EvaluatedOnce arguments others := by
  obtain ⟨asked, inside, total⟩ := once
  exact ⟨asked, inside, same.trans total⟩

/-- An argument before the others is not evaluated. -/
theorem skip (a : Argument) (once : EvaluatedOnce rest calls) : EvaluatedOnce (a :: rest) calls := by
  obtain ⟨asked, inside, total⟩ := once
  exact ⟨asked, inside.cons a, total⟩

/-- An argument before the others is evaluated. -/
theorem take (a : Argument) (once : EvaluatedOnce rest calls) :
    EvaluatedOnce (a :: rest) (a.value.calls ++ calls) := by
  obtain ⟨asked, inside, total⟩ := once
  refine ⟨a :: asked, inside.cons_cons a, ?_⟩
  rw [callsOf_cons]
  exact total.append_left _

/-- An argument before the others is settled. -/
theorem settleAt (fresh : a.settled = none) (once : EvaluatedOnce rest calls) :
    EvaluatedOnce (a :: rest) ((f.settleAt index a).calls ++ calls) := by
  rcases calls_settleAt fresh with silent | own
  · rw [silent]
    exact once.skip a
  · rw [own]
    exact once.take a

/-- A call is one of an argument, all of whose calls are there. -/
theorem exists_of_mem (once : EvaluatedOnce arguments calls) {x : String} (called : x ∈ calls) :
    ∃ a ∈ arguments, x ∈ a.value.calls ∧ a.value.calls.Subperm calls := by
  obtain ⟨asked, inside, total⟩ := once
  obtain ⟨a, among, own⟩ := List.mem_flatMap.mp (total.subset called)
  exact ⟨a, inside.subset among, own, (sublist_callsOf among).subperm.trans total.symm.subperm⟩

end EvaluatedOnce

/-- When all arguments are settled, the first one is and then the others are. -/
theorem exists_of_settleFrom_cons (done : (f.settleFrom index (a :: rest)).result = .ok settled) :
    ∃ a' others, settled = a' :: others ∧ (f.settleAt index a).result = .ok a' ∧
      (f.settleFrom (index + 1) rest).result = .ok others ∧
        (f.settleFrom index (a :: rest)).calls =
          (f.settleAt index a).calls ++ (f.settleFrom (index + 1) rest).calls := by
  rw [settleFrom_cons] at done ⊢
  obtain ⟨a', first, later, calls⟩ := exists_of_result_bind done
  obtain ⟨others, second, same, calls'⟩ := exists_of_result_bind later
  exact ⟨a', others, (Except.ok.inj same).symm, first, second, by
    rw [calls, calls', calls_pure, List.append_nil]⟩

/-- Settling arguments evaluates each at most once. -/
theorem evaluatedOnce_settleFrom (fresh : ∀ a ∈ arguments, a.settled = none) :
    EvaluatedOnce arguments (f.settleFrom index arguments).calls := by
  induction arguments generalizing index with
  | nil => exact .nil []
  | cons a rest ih =>
    rw [settleFrom_cons, calls_bind]
    refine .settleAt (fresh a List.mem_cons_self) ?_
    cases (f.settleAt index a).result with
    | error e => exact .nil rest
    | ok a' =>
      dsimp only
      rw [calls_bind_of_silent _ fun _ => rfl]
      exact ih fun b listed => fresh b (List.mem_cons_of_mem a listed)

/-- Each settled argument is free to read, or it is what it was before. -/
theorem value_settleFrom (fresh : ∀ a ∈ arguments, a.settled = none)
    (done : (f.settleFrom index arguments).result = .ok settled) :
    ∀ a ∈ settled, a.value.calls = [] ∨ a ∈ arguments := by
  induction arguments generalizing index settled with
  | nil =>
    obtain rfl := Except.ok.inj done
    exact fun _ none => absurd none List.not_mem_nil
  | cons a rest ih =>
    obtain ⟨a', others, rfl, first, second, _⟩ := exists_of_settleFrom_cons done
    rintro b (_ | ⟨_, among⟩)
    · rcases value_settleAt (fresh a List.mem_cons_self) first with silent | rfl
      · exact .inl silent
      · exact .inr List.mem_cons_self
    · have others := ih (fun b listed => fresh b (List.mem_cons_of_mem a listed)) second b among
      exact others.imp_right (List.mem_cons_of_mem a)

/-- Settling arguments and reading some of them then evaluates each at most once, unless one repeats. -/
theorem evaluatedOnce_of_read (direct : f.shortCircuit = false) (fresh : ∀ a ∈ arguments, a.settled = none)
    (done : (f.settleFrom index arguments).result = .ok settled)
    (never : ∀ j a, arguments[j]? = some a → ¬f.Repeats (index + j) a) (inside : read.Sublist settled) :
    EvaluatedOnce arguments ((f.settleFrom index arguments).calls ++ callsOf read) := by
  induction arguments generalizing index settled read with
  | nil =>
    obtain rfl := Except.ok.inj done
    exact .of_sublist inside
  | cons a rest ih =>
    obtain ⟨a', others, rfl, first, second, calls⟩ := exists_of_settleFrom_cons done
    have behind : ∀ read : List Argument, read.Sublist others →
        EvaluatedOnce rest ((f.settleFrom (index + 1) rest).calls ++ callsOf read) := by
      refine fun read => ih (fun b listed => fresh b (List.mem_cons_of_mem a listed)) second ?_
      exact fun j b found repeats => never (j + 1) b found (by rwa [Nat.add_right_comm] at repeats)
    have fresh : a.settled = none := fresh a List.mem_cons_self
    rw [calls, List.append_assoc]
    cases inside with
    | cons _ inside => exact (behind read inside).settleAt fresh
    | cons_cons _ inside =>
      rename_i read
      rw [callsOf_cons]
      -- Reading the first argument is free, or it was not evaluated when it was settled.
      rcases settleAt_once fresh direct first (never 0 a rfl) with free | ⟨silent, rfl⟩
      · rw [free]
        exact (behind read inside).settleAt fresh
      · rw [silent, List.nil_append]
        exact ((behind read inside).take a').perm (List.perm_append_comm_assoc _ _ _)

/-- An argument that repeats is evaluated when arguments are settled, and is left as it is. -/
theorem settleFrom_of_repeats (fresh : ∀ a ∈ arguments, a.settled = none)
    (done : (f.settleFrom index arguments).result = .ok settled) {j : Nat} (found : arguments[j]? = some a)
    (repeats : f.Repeats (index + j) a) :
    settled[j]? = some a ∧ a.value.calls.Sublist (f.settleFrom index arguments).calls := by
  induction arguments generalizing index settled j with
  | nil => contradiction
  | cons b rest ih =>
    obtain ⟨b', others, rfl, first, second, calls⟩ := exists_of_settleFrom_cons done
    rw [calls]
    cases j with
    | zero =>
      obtain rfl := Option.some.inj found
      have here : f.Repeats index b := repeats
      obtain ⟨same, own⟩ := settleAt_of_repeats (fresh b List.mem_cons_self) here
      rw [first] at same
      exact ⟨congrArg some (Except.ok.inj same), own ▸ List.sublist_append_left _ _⟩
    | succ j =>
      obtain ⟨same, own⟩ := ih (fun b listed => fresh b (List.mem_cons_of_mem _ listed)) second found
        (by rwa [Nat.add_right_comm])
      exact ⟨same, own.trans (List.sublist_append_right _ _)⟩

/-- Settled arguments have the other names. -/
theorem settleFrom_renamed (f : Function) (index : Nat) (arguments : List Argument) :
    f.settleFrom index (arguments.map (Argument.renamed rename)) =
      List.map (Argument.renamed rename) <$> (f.settleFrom index arguments).renamed rename := by
  induction arguments generalizing index with
  | nil => exact (map_pure ..).symm
  | cons a rest ih =>
    rw [List.map_cons, settleFrom_cons, settleFrom_cons, settleAt_renamed, renamed_bind, bind_map_left,
      map_bind]
    refine bind_congr fun a' => ?_
    rw [ih, renamed_bind, bind_map_left, map_bind]
    exact bind_congr fun others => (map_pure ..).symm

end Function

end Spreadsheet
