import Mathlib.Data.List.Perm.Subperm
import Spreadsheet.Proofs.Function.Rectangular

/-!
# What functions read of their arguments

Evaluating an argument runs bodies of functions, and reading it again runs them again. A function reads
by handles if its body runs no other bodies than those of the arguments it reads, reads each of them at
most once, and does not look at what the bodies are called. It meets errors if its body evaluates the
arguments that failed when they were settled. Every function of the library does both.
-/
namespace Spreadsheet

namespace Evaluation

variable {α β : Type} {x y : Evaluation α} {rename : String → String}

/-- An evaluation is its result and its calls. -/
theorem ext (result : x.result = y.result) (calls : x.calls = y.calls) : x = y := by
  show ExceptT.mk (Traced.mk x.result x.calls) = ExceptT.mk (Traced.mk y.result y.calls)
  rw [result, calls]

/-- A value makes no call. -/
@[simp] theorem calls_pure (a : α) : (pure a : Evaluation α).calls = [] := rfl

/-- A result makes no call. -/
@[simp] theorem calls_ofExcept (result : Except CellError α) : (ofExcept result).calls = [] := rfl

/-- Looking at the result of an evaluation makes its calls. -/
@[simp] theorem calls_observe (x : Evaluation α) : (observe x).calls = x.calls := by
  show x.calls ++ [] = x.calls
  exact List.append_nil _

/-- Calls come in order, and after an error there are none. -/
theorem calls_bind (x : Evaluation α) (f : α → Evaluation β) :
    (x >>= f).calls = x.calls ++
      match x.result with
      | .ok a => (f a).calls
      | .error _ => [] := by
  show (x.run >>= ExceptT.bindCont f).calls = _
  rw [Traced.calls_bind]
  unfold result
  cases x.run.result <;> rfl

/-- What makes no call after an evaluation adds none. -/
theorem calls_bind_of_silent (x : Evaluation α) {g : α → Evaluation β} (silent : ∀ a, (g a).calls = []) :
    (x >>= g).calls = x.calls := by
  rw [calls_bind]
  cases x.result with
  | ok a => exact (congrArg (x.calls ++ ·) (silent a)).trans (List.append_nil _)
  | error e => exact List.append_nil _

/-- The evaluation with other names of calls. -/
def renamed (rename : String → String) (x : Evaluation α) : Evaluation α :=
  ExceptT.mk ⟨x.result, x.calls.map rename⟩

/-- Other names of calls leave the result. -/
@[simp] theorem result_renamed : (x.renamed rename).result = x.result := rfl

/-- The names of calls are others. -/
@[simp] theorem calls_renamed : (x.renamed rename).calls = x.calls.map rename := rfl

/-- Names change step by step. -/
theorem renamed_bind (x : Evaluation α) (f : α → Evaluation β) :
    (x >>= f).renamed rename = x.renamed rename >>= fun a => (f a).renamed rename := by
  refine ext ?_ ?_
  · rw [result_renamed, result_bind, result_bind, result_renamed]
    cases x.result <;> rfl
  · rw [calls_renamed, calls_bind, calls_bind, calls_renamed, result_renamed, List.map_append]
    cases x.result <;> rfl

/-- What makes no call has no names to change. -/
theorem renamed_of_calls (silent : x.calls = []) : x.renamed rename = x :=
  ext rfl (by rw [calls_renamed, silent, List.map_nil])

/-- What makes no call after an evaluation has no names to change. -/
theorem renamed_bind_of_silent (x : Evaluation α) {g : α → Evaluation β}
    (silent : ∀ a, (g a).calls = []) : (x >>= g).renamed rename = x.renamed rename >>= g := by
  rw [renamed_bind]
  exact bind_congr fun a => renamed_of_calls (silent a)

/-- Looking at the result of an evaluation keeps its names. -/
theorem renamed_observe (x : Evaluation α) :
    (observe x).renamed rename = observe (x.renamed rename) :=
  ext rfl (by rw [calls_renamed, calls_observe, calls_observe, calls_renamed])

end Evaluation

namespace Argument

open Evaluation

variable {a : Argument} {arguments : List Argument} {rename : String → String}

/-- Evaluating the argument ends in an error. -/
def Fails (a : Argument) : Prop := ∃ e, a.value.result = .error e

/-- The argument whose calls have other names. -/
def renamed (rename : String → String) (a : Argument) : Argument :=
  { a with outcome := a.outcome.renamed rename }

/-- The value of an argument has the other names. -/
theorem value_renamed (a : Argument) : (a.renamed rename).value = a.value.renamed rename := by
  have same : ((a.renamed rename).literal? <|> (a.renamed rename).settled) =
    (a.literal? <|> a.settled) := rfl
  unfold value
  rw [same]
  cases a.literal? <|> a.settled <;> rfl

/-- The single value of an argument has the other names. -/
theorem single_renamed (a : Argument) : (a.renamed rename).single = a.single.renamed rename := by
  unfold single
  rw [value_renamed, renamed_bind]
  exact bind_congr fun v => (renamed_of_calls rfl).symm

/-- What an argument contributes has the other names. -/
theorem items_renamed (a : Argument) : (a.renamed rename).items = a.items.renamed rename := by
  unfold items
  show (if a.isOmitted = true then _ else _) = _
  split
  · rfl
  · rw [value_renamed, renamed_bind]
    refine bind_congr fun v => ?_
    cases v <;> rfl

/-- What is taken from arguments has the other names. -/
theorem gather_renamed {α : Type} (pick : Value → Bool → Except CellError (List α))
    (arguments : List Argument) :
    gather pick (arguments.map (renamed rename)) = (gather pick arguments).renamed rename := by
  induction arguments with
  | nil => rfl
  | cons a rest ih =>
    rw [List.map_cons, gather, gather, items_renamed, renamed_bind]
    refine bind_congr fun items => ?_
    rw [renamed_bind, renamed_of_calls (calls_ofExcept _), ih]
    refine bind_congr fun picked => ?_
    rw [renamed_bind]
    exact bind_congr fun others => (renamed_of_calls rfl).symm

/-- The cells of an argument have the other names. -/
theorem block_renamed (a : Argument) : (a.renamed rename).block = a.block.renamed rename := by
  unfold block
  show (if a.expr.isReference = true then _ else _) = _
  split
  · exact (renamed_of_calls rfl).symm
  · rw [value_renamed, renamed_bind]
    exact bind_congr fun v => (renamed_of_calls rfl).symm

/-- A settled argument has the other names. -/
theorem settle_renamed (a : Argument) :
    (a.renamed rename).settle = renamed rename <$> a.settle.renamed rename := by
  unfold settle
  show (if a.literal?.isSome = true then _ else _) = _
  split
  · exact (map_pure ..).symm
  · show observe (a.outcome.renamed rename) >>= _ = _
    rw [renamed_bind, renamed_observe, map_bind]
    refine bind_congr fun result => ?_
    cases result with
    | error e => exact (map_pure ..).symm
    | ok v =>
      dsimp only
      rw [renamed_bind, map_bind, renamed_of_calls (calls_ofExcept _)]
      exact bind_congr fun w => (map_pure ..).symm

end Argument

namespace Function

open Evaluation

variable {f : Function} {arguments : List Argument} {a : Argument} {rename : String → String}

/-- The function settles its argument at an index before its body runs. -/
def Settles (f : Function) (index : Nat) : Prop :=
  f.shortCircuit = false ∧ (f.parameter? index).map Parameter.shape = some .single

/-- The calls that reading arguments makes, one after the other. -/
def callsOf (read : List Argument) : List String := read.flatMap fun a => a.value.calls

/-- The calls of an argument that is read are among the calls of reading. -/
theorem sublist_callsOf (among : a ∈ arguments) : a.value.calls.Sublist (callsOf arguments) :=
  List.sublist_flatten_of_mem (List.mem_map_of_mem among)

/-- Reading one more argument makes its calls first. -/
@[simp] theorem callsOf_cons (a : Argument) (read : List Argument) :
    callsOf (a :: read) = a.value.calls ++ callsOf read := List.flatMap_cons

/-- Reading one argument makes its calls. -/
@[simp] theorem callsOf_singleton (a : Argument) : callsOf [a] = a.value.calls := List.flatMap_singleton ..

/-- The body of a function reads each of its arguments at most once. It runs no other bodies than theirs, and
what these are called does not matter to it. -/
structure ReadsByHandles (f : Function) : Prop where
  renamed : ∀ (rename : String → String) (arguments : List Argument),
    f.body (arguments.map (Argument.renamed rename)) = (f.body arguments).renamed rename
  reads : ∀ arguments : List Argument, ∃ read : List Argument,
    read.Subperm arguments ∧ (f.body arguments).calls = callsOf read

/-- The body of a function evaluates each argument that it was to get settled but that failed. -/
def MeetsErrors (f : Function) : Prop :=
  ∀ (arguments : List Argument) (index : Nat) (a : Argument), arguments[index]? = some a →
    f.Settles index → a.Fails → a.value.calls.Sublist (f.body arguments).calls

/-! ### The library -/

/-- The single value of an argument makes the calls of its value. -/
theorem calls_single (a : Argument) : a.single.calls = a.value.calls := calls_bind_of_silent _ fun _ => rfl

/-- What an argument contributes makes the calls of its value, unless the argument is left out. -/
theorem calls_items (a : Argument) : a.items.calls = [] ∨ a.items.calls = a.value.calls := by
  unfold Argument.items
  split
  · exact .inl rfl
  · exact .inr (calls_bind_of_silent _ fun v => by cases v <;> rfl)

/-- Taking something from the values of arguments reads some of them, from the first on. -/
theorem exists_read_of_gather {α : Type} (pick : Value → Bool → Except CellError (List α))
    (arguments : List Argument) :
    ∃ read : List Argument, read.Sublist arguments ∧
      (Argument.gather pick arguments).calls = callsOf read := by
  induction arguments with
  | nil => exact ⟨[], .slnil, rfl⟩
  | cons a rest ih =>
    obtain ⟨read, inside, calls⟩ := ih
    -- The arguments behind the first one are read, unless what is taken from it is an error.
    have behind : ∃ read : List Argument, read.Sublist rest ∧
        (Argument.gather pick (a :: rest)).calls = a.items.calls ++ callsOf read := by
      rw [Argument.gather, calls_bind]
      cases a.items.result with
      | error e => exact ⟨[], List.nil_sublist _, rfl⟩
      | ok items =>
        dsimp only
        rw [calls_bind, calls_ofExcept, List.nil_append]
        cases (Evaluation.ofExcept (items.mapM fun item => pick item.1 item.2)).result with
        | error e => exact ⟨[], List.nil_sublist _, rfl⟩
        | ok picked =>
          dsimp only
          rw [calls_bind_of_silent _ fun others => rfl, calls]
          exact ⟨read, inside, rfl⟩
    obtain ⟨read, inside, calls⟩ := behind
    rcases calls_items a with silent | own
    · exact ⟨read, inside.cons a, by rw [calls, silent, List.nil_append]⟩
    · exact ⟨a :: read, inside.cons_cons a, by rw [calls, own, callsOf_cons]⟩

/-- A function that starts by taking something from the values of all arguments reads by handles. -/
theorem readsByHandles_of_gather {α : Type} {pick : Value → Bool → Except CellError (List α)}
    {rest : List α → Evaluation Value}
    (body : ∀ arguments, f.body arguments = Argument.gather pick arguments >>= rest)
    (silent : ∀ found, (rest found).calls = []) : f.ReadsByHandles where
  renamed rename arguments := by
    rw [body, body, Argument.gather_renamed, renamed_bind_of_silent _ silent]
  reads arguments := by
    obtain ⟨read, inside, calls⟩ := exists_read_of_gather pick arguments
    exact ⟨read, inside.subperm, by rw [body, calls_bind_of_silent _ silent, calls]⟩

/-- A function of the single value of its first argument reads by handles. -/
theorem readsByHandles_of_single {rest : Value → Evaluation Value}
    (body : ∀ a others, f.body (a :: others) = a.single >>= rest) (without : (f.body []).calls = [])
    (silent : ∀ v, (rest v).calls = []) : f.ReadsByHandles where
  renamed rename arguments := by
    cases arguments with
    | nil => exact (renamed_of_calls without).symm
    | cons a others =>
      rw [List.map_cons, body, body, renamed_bind_of_silent _ silent]
      exact congrArg (· >>= rest) a.single_renamed
  reads arguments := by
    cases arguments with
    | nil => exact ⟨[], List.Subperm.refl _, without⟩
    | cons a others =>
      refine ⟨[a], (List.singleton_sublist.mpr List.mem_cons_self).subperm, ?_⟩
      rw [body, calls_bind_of_silent _ silent, calls_single, callsOf_singleton]

/-- A function of the single value of its only argument meets errors. -/
theorem meetsErrors_of_single {rest : Value → Evaluation Value}
    (body : ∀ a others, f.body (a :: others) = a.single >>= rest) (one : f.parameters.length = 1)
    (fixed : f.variadic = false) : f.MeetsErrors := by
  intro arguments index a found settles _
  cases arguments with
  | nil => contradiction
  | cons b others =>
    cases index with
    | zero =>
      obtain rfl := Option.some.inj found
      rw [body, calls_bind, calls_single]
      exact List.sublist_append_left _ _
    | succ index =>
      have beyond : f.parameter? (index + 1) = none := by
        unfold parameter?
        rw [List.getElem?_eq_none (by omega), fixed]
        rfl
      have shape := settles.2
      rw [beyond] at shape
      contradiction

/-- A function that settles no argument meets errors. -/
theorem meetsErrors_of_not_settles (never : ∀ index, ¬f.Settles index) : f.MeetsErrors :=
  fun _ index _ _ settles => absurd settles (never index)

/-- A function that takes all of its arguments as ranges settles none. -/
theorem not_settles_of_ranges (ranges : ∀ parameter ∈ f.parameters, parameter.shape = .range) (index : Nat) :
    ¬f.Settles index := by
  rintro ⟨_, single⟩
  obtain ⟨parameter, found, shape⟩ := Option.map_eq_some_iff.mp single
  have listed : parameter ∈ f.parameters := by
    unfold parameter? at found
    cases own : f.parameters[index]? with
    | some own' =>
      rw [own] at found
      exact Option.some.inj found ▸ List.mem_of_getElem? own
    | none =>
      rw [own] at found
      cases variadic : f.variadic with
      | true =>
        rw [variadic] at found
        exact List.mem_of_getLast? found
      | false =>
        rw [variadic] at found
        contradiction
  rw [ranges parameter listed] at shape
  contradiction

/-- Aggregates read by handles. -/
theorem readsByHandles_aggregate (name : String) (g : List Number → Except CellError Number) :
    (aggregate name g).ReadsByHandles :=
  readsByHandles_of_gather (fun _ => rfl) fun _ => calls_bind_of_silent _ fun _ => rfl

/-- A count reads by handles. -/
theorem readsByHandles_count : count.ReadsByHandles :=
  readsByHandles_of_gather (fun _ => rfl) fun _ => rfl

/-- A magnitude reads by handles. -/
theorem readsByHandles_magnitude : magnitude.ReadsByHandles := by
  refine readsByHandles_of_single (fun _ _ => rfl) rfl fun v => ?_
  exact calls_bind_of_silent (Evaluation.ofExcept v.asNumber) fun _ => rfl

/-- A function of truth values reads by handles. -/
theorem readsByHandles_logical (name : String) (g : List Bool → Bool) : (logical name g).ReadsByHandles :=
  readsByHandles_of_gather (fun _ => rfl) fun truths => by dsimp only; split <;> rfl

/-- An opposite reads by handles. -/
theorem readsByHandles_negation : negation.ReadsByHandles := by
  refine readsByHandles_of_single (fun _ _ => rfl) rfl fun v => ?_
  exact calls_bind_of_silent (Evaluation.ofExcept v.asBoolean) fun _ => rfl

/-- A joined text reads by handles. -/
theorem readsByHandles_concatenation : concatenation.ReadsByHandles :=
  readsByHandles_of_gather (fun _ => rfl) fun _ => rfl

/-- The cells of an argument make the calls of its value, unless it is a reference. -/
theorem calls_block (a : Argument) : a.block.calls = [] ∨ a.block.calls = a.value.calls := by
  unfold Argument.block
  split
  · exact .inl rfl
  · exact .inr (calls_bind_of_silent _ fun _ => rfl)

/-- Swapping rows and columns reads by handles. -/
theorem readsByHandles_transposition : transposition.ReadsByHandles where
  renamed rename arguments := by
    cases arguments with
    | nil => rfl
    | cons a rest =>
      show (a.renamed rename).block >>= _ = (a.block >>= _).renamed rename
      rw [a.block_renamed, renamed_bind_of_silent _ fun _ => rfl]
  reads arguments := by
    cases arguments with
    | nil => exact ⟨[], List.Subperm.refl _, rfl⟩
    | cons a rest =>
      have calls : (transposition.body (a :: rest)).calls = a.block.calls :=
        calls_bind_of_silent _ fun _ => rfl
      rcases calls_block a with silent | own
      · exact ⟨[], List.nil_subperm, by rw [calls, silent]; rfl⟩
      · refine ⟨[a], (List.singleton_sublist.mpr List.mem_cons_self).subperm, ?_⟩
        rw [calls, own, callsOf_singleton]

/-- A branch has the other names. -/
theorem branch_renamed (taken : Option Argument) :
    branch (taken.map (Argument.renamed rename)) = (branch taken).renamed rename := by
  cases taken with
  | none => rfl
  | some a =>
    show (if a.isOmitted = true then _ else _) =
      (if a.isOmitted = true then _ else _ : Evaluation Value).renamed _
    split
    · rfl
    · exact a.value_renamed

/-- A branch makes the calls of its argument, if it is there and not left out. -/
theorem calls_branch (taken : Option Argument) :
    (branch taken).calls = [] ∨ ∃ a ∈ taken, (branch taken).calls = a.value.calls := by
  cases taken with
  | none => exact .inl rfl
  | some a =>
    unfold branch
    dsimp only
    split
    · exact .inl rfl
    · exact .inr ⟨a, rfl, rfl⟩

/-- A choice reads by handles: the condition, and one of the branches. -/
theorem readsByHandles_choice : choice.ReadsByHandles where
  renamed rename arguments := by
    cases arguments with
    | nil => rfl
    | cons a rest =>
      show (a.renamed rename).single >>= _ = (a.single >>= _).renamed rename
      rw [a.single_renamed, renamed_bind]
      refine bind_congr fun v => ?_
      rw [renamed_bind, renamed_of_calls (calls_ofExcept _)]
      refine bind_congr fun chosen => ?_
      rw [← branch_renamed, ← List.getElem?_map, List.map_cons]
  reads arguments := by
    cases arguments with
    | nil => exact ⟨[], List.Subperm.refl _, rfl⟩
    | cons a rest =>
      have behind : ∃ read : List Argument, read.Sublist rest ∧
          (choice.body (a :: rest)).calls = a.value.calls ++ callsOf read := by
        show ∃ read : List Argument, read.Sublist rest ∧ (a.single >>= _ : Evaluation Value).calls = _
        rw [calls_bind, calls_single]
        cases a.single.result with
        | error e => exact ⟨[], List.nil_sublist _, rfl⟩
        | ok v =>
          dsimp only
          rw [calls_bind, calls_ofExcept, List.nil_append]
          cases (Evaluation.ofExcept v.asBoolean).result with
          | error e => exact ⟨[], List.nil_sublist _, rfl⟩
          | ok chosen =>
            dsimp only
            rcases calls_branch (a :: rest)[if chosen then 1 else 2]? with silent | ⟨b, found, own⟩
            · exact ⟨[], List.nil_sublist _, by rw [silent]; rfl⟩
            · refine ⟨[b], List.singleton_sublist.mpr ?_, by rw [own, callsOf_singleton]⟩
              cases chosen <;> exact List.mem_of_getElem? (Option.mem_def.mp found)
      obtain ⟨read, inside, calls⟩ := behind
      exact ⟨a :: read, (inside.cons_cons a).subperm, by rw [calls, callsOf_cons]⟩

/-- The functions of the library read by handles. -/
theorem readsByHandles_of_mem_library (listed : f ∈ library) : f.ReadsByHandles := by
  simp only [library, List.mem_cons, List.not_mem_nil, or_false] at listed
  rcases listed with rfl | rfl | rfl | rfl | rfl | rfl | rfl | rfl | rfl | rfl | rfl | rfl | rfl
  · exact readsByHandles_transposition
  · exact readsByHandles_choice
  · exact readsByHandles_logical _ _
  · exact readsByHandles_logical _ _
  · exact readsByHandles_negation
  · exact readsByHandles_aggregate _ _
  · exact readsByHandles_aggregate _ _
  · exact readsByHandles_aggregate _ _
  · exact readsByHandles_aggregate _ _
  · exact readsByHandles_count
  · exact readsByHandles_aggregate _ _
  · exact readsByHandles_magnitude
  · exact readsByHandles_concatenation

/-- A choice settles no argument. -/
theorem not_settles_choice (index : Nat) : ¬choice.Settles index := fun settles => by
  have direct := settles.1
  contradiction

/-- The functions of the library meet errors: they settle no argument, or are of one single value. -/
theorem meetsErrors_of_mem_library (listed : f ∈ library) : f.MeetsErrors := by
  have ranges : ∀ {f : Function} {parameter : Parameter}, f.parameters = [parameter] →
      parameter.shape = .range → f.MeetsErrors := fun only range =>
    meetsErrors_of_not_settles (not_settles_of_ranges (by
      rw [only]
      exact List.forall_mem_singleton.mpr range))
  simp only [library, List.mem_cons, List.not_mem_nil, or_false] at listed
  rcases listed with rfl | rfl | rfl | rfl | rfl | rfl | rfl | rfl | rfl | rfl | rfl | rfl | rfl
  · exact ranges rfl rfl
  · exact meetsErrors_of_not_settles not_settles_choice
  · exact ranges rfl rfl
  · exact ranges rfl rfl
  · exact meetsErrors_of_single (fun _ _ => rfl) rfl rfl
  · exact ranges rfl rfl
  · exact ranges rfl rfl
  · exact ranges rfl rfl
  · exact ranges rfl rfl
  · exact ranges rfl rfl
  · exact ranges rfl rfl
  · exact meetsErrors_of_single (fun _ _ => rfl) rfl rfl
  · exact ranges rfl rfl

end Function

/-- A function that a workbook knows reads by handles if those it was given do. -/
theorem FunctionTable.readsByHandles_of_resolve? {table : FunctionTable} {f : Function}
    {family name : String} (given : ∀ g ∈ table.functions, g.ReadsByHandles)
    (found : table.resolve? family name = some f) : f.ReadsByHandles :=
  (mem_of_resolve? found).elim (given f) Function.readsByHandles_of_mem_library

/-- A function that a workbook knows meets errors if those it was given do. -/
theorem FunctionTable.meetsErrors_of_resolve? {table : FunctionTable} {f : Function}
    {family name : String} (given : ∀ g ∈ table.functions, g.MeetsErrors)
    (found : table.resolve? family name = some f) : f.MeetsErrors :=
  (mem_of_resolve? found).elim (given f) Function.meetsErrors_of_mem_library

end Spreadsheet
