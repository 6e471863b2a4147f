import Mathlib.Data.List.Nodup
import Spreadsheet.Proofs.Evaluation.NumberedCalls

/-!
# Bodies that run once

Evaluating a tree runs the body of each of its calls at most once, unless a call that runs takes an argument
as a single value, and the argument fails after it has run bodies itself. A failing argument is not kept when
it is settled, so the body of the call evaluates it again.
-/
namespace Spreadsheet

open Evaluation

variable {world : Surroundings}

namespace CallNode

/-- Evaluate the call with labels from a number on. -/
def evaluateBy (node : CallNode) (world : Surroundings) (number : Nat) : Evaluation Value :=
  (Expr.call node.name node.arguments none).evaluateBy world number

/-- An argument of the call is taken as a single value and fails, after it has run bodies. -/
def Repeats (node : CallNode) (world : Surroundings) : Prop :=
  ∃ f, world.function? node.name = some f ∧
    ∃ index a, (Expr.evaluateArguments world node.arguments)[index]? = some a ∧ f.Repeats index a

end CallNode

/-- Other names of calls leave whether an argument repeats. -/
theorem Function.repeats_renamed {f : Function} {index : Nat} {a : Argument} {rename : String → String} :
    f.Repeats index (a.renamed rename) ↔ f.Repeats index a := by
  unfold Repeats Argument.Fails
  rw [a.value_renamed, result_renamed, calls_renamed, ne_eq, List.map_eq_nil_iff]

/-- The labels of an evaluation are accounted for by calls with numbers: each belongs to one of them, all of
whose labels are there then, and no number comes twice, unless one of the calls that ran repeats. -/
structure Accounted (world : Surroundings) (nodes : List (CallNode × Nat)) (labels : List String) : Prop where
  source : ∀ label ∈ labels, ∃ node ∈ nodes,
    (∃ f, world.function? node.1.name = some f ∧ label = CallLabel.of node.2 f.name) ∧
      label ∈ (node.1.evaluateBy world node.2).calls ∧
        (node.1.evaluateBy world node.2).calls.Subperm labels
  once : (∀ node ∈ nodes, node.2 ∈ labels.map CallLabel.number → ¬node.1.Repeats world) →
    (labels.map CallLabel.number).Subperm (nodes.map Prod.snd)

namespace Accounted

variable {nodes others : List (CallNode × Nat)} {labels more : List String}

/-- No label is accounted for by any calls. -/
theorem nil (nodes : List (CallNode × Nat)) : Accounted world nodes [] where
  source _ none := absurd none List.not_mem_nil
  once _ := List.nil_subperm

/-- Labels after labels are accounted for by calls after calls. -/
theorem append (first : Accounted world nodes labels) (second : Accounted world others more) :
    Accounted world (nodes ++ others) (labels ++ more) where
  source label among := by
    rcases List.mem_append.mp among with among | among
    · obtain ⟨node, listed, named, own, all⟩ := first.source label among
      exact ⟨node, List.mem_append_left _ listed, named, own,
        all.trans (List.sublist_append_left _ _).subperm⟩
    · obtain ⟨node, listed, named, own, all⟩ := second.source label among
      exact ⟨node, List.mem_append_right _ listed, named, own,
        all.trans (List.sublist_append_right _ _).subperm⟩
  once never := by
    rw [List.map_append, List.map_append]
    rw [List.map_append] at never
    refine (first.once fun node listed ran => ?_).append (second.once fun node listed ran => ?_)
    · exact never node (List.mem_append_left _ listed) (List.mem_append_left _ ran)
    · exact never node (List.mem_append_right _ listed) (List.mem_append_right _ ran)

/-- The order of labels does not matter. -/
theorem perm (all : Accounted world nodes labels) (same : more.Perm labels) : Accounted world nodes more where
  source label among := by
    obtain ⟨node, listed, named, own, within⟩ := all.source label (same.subset among)
    exact ⟨node, listed, named, own, within.trans same.symm.subperm⟩
  once never := by
    refine (same.map CallLabel.number).subperm.trans (all.once fun node listed ran => ?_)
    exact never node listed ((same.map CallLabel.number).symm.subset ran)

/-- Step after step is accounted for by calls after calls. -/
theorem bind {α β : Type} {x : Evaluation α} {g : α → Evaluation β} (first : Accounted world nodes x.calls)
    (second : ∀ a, Accounted world others (g a).calls) :
    Accounted world (nodes ++ others) (x >>= g).calls := by
  rw [calls_bind]
  refine first.append ?_
  cases x.result with
  | error e => exact nil others
  | ok a => exact second a

/-- A step that runs nothing needs no account. -/
theorem bind_of_silent {α β : Type} {x : Evaluation α} {g : α → Evaluation β}
    (first : Accounted world nodes x.calls) (silent : ∀ a, (g a).calls = []) :
    Accounted world nodes (x >>= g).calls := by
  rwa [calls_bind_of_silent x silent]

end Accounted

namespace Expr

/-- An argument that was not settled makes the calls of its expression. -/
theorem calls_value_of_fresh (e : Expr) (start : Nat) (covered : Unit → Except CellError CellBlock)
    (format : Unit → ResultFormat) :
    (Argument.mk e (e.evaluateBy world start) none covered format).value.calls =
      (e.evaluateBy world start).calls := by
  cases e <;> rfl

/-- The arguments of a call are not settled. -/
theorem settled_of_mem_evaluateArgumentsBy {a : Argument} :
    ∀ {arguments : List Expr} {start : Nat}, a ∈ evaluateArgumentsBy world arguments start → a.settled = none
  | [], _, among => absurd among List.not_mem_nil
  | _ :: _, _, among => by
    rcases List.mem_cons.mp among with rfl | among
    · rfl
    · exact settled_of_mem_evaluateArgumentsBy among

/-- A call of a function that exists is labelled. -/
theorem evaluateBy_call {name : String} {f : Function} (found : world.function? name = some f)
    (arguments : List Expr) (span : Option Span) (start : Nat) :
    (call name arguments span).evaluateBy world start =
      f.callAs (CallLabel.of start f.name) (evaluateArgumentsBy world arguments (start + 1)) := by
  rw [evaluateBy, found]

/-- A call repeats if one of its arguments with labels does. -/
theorem repeats_iff (handles : world.ReadByHandles) {node : CallNode} {f : Function}
    (found : world.function? node.name = some f) (start : Nat) :
    node.Repeats world ↔
      ∃ index a, (evaluateArgumentsBy world node.arguments start)[index]? = some a ∧ f.Repeats index a := by
  unfold CallNode.Repeats
  rw [← evaluateArgumentsBy_renamed handles node.arguments start]
  constructor
  · rintro ⟨g, same, index, a, there, repeats⟩
    obtain rfl := Option.some.inj (found.symm.trans same)
    rw [List.getElem?_map] at there
    obtain ⟨b, listed, rfl⟩ := Option.map_eq_some_iff.mp there
    exact ⟨index, b, listed, Function.repeats_renamed.mp repeats⟩
  · rintro ⟨index, a, there, repeats⟩
    refine ⟨f, found, index, a.renamed CallLabel.name, ?_, Function.repeats_renamed.mpr repeats⟩
    rw [List.getElem?_map, there]
    rfl

/-- What runs in a call is accounted for by the call and those among its arguments. -/
theorem accounted_call (handles : world.ReadByHandles) {name : String} {arguments : List Expr} {start : Nat}
    (inner : ∀ labels, Function.EvaluatedOnce (evaluateArgumentsBy world arguments (start + 1)) labels →
      Accounted world ((callNodesOfAll arguments).zipIdx (start + 1)) labels) :
    Accounted world ((⟨name, arguments⟩, start) :: (callNodesOfAll arguments).zipIdx (start + 1))
      ((call name arguments none).evaluateBy world start).calls := by
  cases found : world.function? name with
  | none =>
    have nothing : ((call name arguments none).evaluateBy world start).calls = [] := by
      rw [evaluateBy, found]
      rfl
    rw [nothing]
    exact .nil _
  | some f =>
    have reads : f.ReadsByHandles := handles name f found
    have fresh : ∀ a ∈ evaluateArgumentsBy world arguments (start + 1), a.settled = none :=
      fun a => settled_of_mem_evaluateArgumentsBy
    have calls : ((⟨name, arguments⟩ : CallNode).evaluateBy world start).calls =
        (f.callAs (CallLabel.of start f.name) (evaluateArgumentsBy world arguments (start + 1))).calls := by
      rw [CallNode.evaluateBy, evaluateBy_call found]
    rw [evaluateBy_call found]
    refine ⟨fun label ran => ?_, fun never => ?_⟩
    · rcases reads.mem_calls_callAs fresh ran with rfl | ⟨a, listed, own, within⟩
      · exact ⟨_, List.mem_cons_self, ⟨f, found, rfl⟩, calls ▸ ran, calls ▸ List.Subperm.refl _⟩
      · obtain ⟨node, there, named, mine, all⟩ := (inner _ (.of_mem listed)).source label own
        exact ⟨node, List.mem_cons_of_mem _ there, named, mine, all.trans within⟩
    · obtain ⟨labels, once, total⟩ := reads.callAs_once fresh fun ran index a there repeats => by
        have numbered := List.mem_map_of_mem (f := CallLabel.number) ran
        rw [CallLabel.number_of] at numbered
        exact never (⟨name, arguments⟩, start) List.mem_cons_self numbered
          ((repeats_iff handles found (start + 1)).mpr ⟨index, a, there, repeats⟩)
      have beneath : labels ⊆
          (f.callAs (CallLabel.of start f.name) (evaluateArgumentsBy world arguments (start + 1))).calls := by
        rcases total with same | same
        · exact same ▸ List.Subset.refl _
        · exact fun _ among => same.symm.subset (List.mem_cons_of_mem _ among)
      have once := (inner labels once).once fun node there ran =>
        never node (List.mem_cons_of_mem _ there) (List.map_subset _ beneath ran)
      rw [List.map_cons]
      rcases total with same | same
      · rw [same]
        exact once.trans (List.sublist_cons_self _ _).subperm
      · refine (same.map CallLabel.number).subperm.trans ?_
        rw [List.map_cons, CallLabel.number_of]
        exact (List.subperm_cons start).mpr once

mutual

/-- What runs in a tree is accounted for by its calls. -/
theorem accounted_evaluateBy (handles : world.ReadByHandles) : ∀ (e : Expr) (start : Nat),
    Accounted world (e.callNodes.zipIdx start) (e.evaluateBy world start).calls
  | .literal _ _, _ => .nil _
  | .reference _ _ _, _ => .nil _
  | .unary _ operand _, start => (accounted_evaluateBy handles operand start).bind_of_silent fun _ => rfl
  | .binary _ left right _, start => by
    rw [callNodes, List.zipIdx_append]
    exact (accounted_evaluateBy handles left start).bind fun _ =>
      (accounted_evaluateBy handles right _).bind_of_silent fun _ => rfl
  | .call name arguments _, start =>
    accounted_call handles fun _ once => by
      obtain ⟨asked, inside, total⟩ := once
      exact (accounted_callsOf handles arguments (start + 1) asked inside).perm total
  | .array rows _, start => (accounted_evaluateRowsBy handles rows start).bind_of_silent fun _ => rfl

/-- What runs for some of the arguments of a call is accounted for by their calls. -/
theorem accounted_callsOf (handles : world.ReadByHandles) :
    ∀ (arguments : List Expr) (start : Nat) (asked : List Argument),
      asked.Sublist (evaluateArgumentsBy world arguments start) →
        Accounted world ((callNodesOfAll arguments).zipIdx start) (Function.callsOf asked)
  | [], _, asked, inside => by
    obtain rfl := List.sublist_nil.mp inside
    exact .nil _
  | e :: rest, start, asked, inside => by
    rw [callNodesOfAll, List.zipIdx_append]
    cases inside with
    | cons _ inside => exact (Accounted.nil _).append (accounted_callsOf handles rest _ asked inside)
    | cons_cons _ inside =>
      rw [Function.callsOf_cons, calls_value_of_fresh]
      exact (accounted_evaluateBy handles e start).append (accounted_callsOf handles rest _ _ inside)

/-- What runs in a row is accounted for by its calls. -/
theorem accounted_evaluateRowBy (handles : world.ReadByHandles) : ∀ (row : List Expr) (start : Nat),
    Accounted world ((callNodesOfAll row).zipIdx start) (evaluateRowBy world row start).calls
  | [], _ => .nil _
  | e :: rest, start => by
    rw [callNodesOfAll, List.zipIdx_append]
    exact (accounted_evaluateBy handles e start).bind fun _ =>
      (accounted_evaluateRowBy handles rest _).bind_of_silent fun _ => rfl

/-- What runs in rows is accounted for by their calls. -/
theorem accounted_evaluateRowsBy (handles : world.ReadByHandles) :
    ∀ (rows : List (List Expr)) (start : Nat),
      Accounted world ((callNodesOfRows rows).zipIdx start) (evaluateRowsBy world rows start).calls
  | [], _ => .nil _
  | row :: rest, start => by
    rw [callNodesOfRows, List.zipIdx_append]
    exact (accounted_evaluateRowBy handles row start).bind fun _ =>
      (accounted_evaluateRowsBy handles rest _).bind_of_silent fun _ => rfl

end

/-- When the body of a call that repeats runs, some number comes twice. -/
theorem not_nodup_of_repeats (handles : world.ReadByHandles) (meets : world.MeetErrors) {node : CallNode}
    {f : Function} {start : Nat} (found : world.function? node.name = some f)
    (ran : CallLabel.of start f.name ∈ (node.evaluateBy world start).calls) (repeats : node.Repeats world) :
    ¬(node.evaluateBy world start).calls.Nodup := by
  intro once
  rw [CallNode.evaluateBy, evaluateBy_call found] at ran once
  obtain ⟨index, a, there, repeats⟩ := (repeats_iff handles found (start + 1)).mp repeats
  -- The numbers of the calls among the arguments are larger than that of the call.
  have own : ∀ a ∈ evaluateArgumentsBy world node.arguments (start + 1),
      CallLabel.of start f.name ∉ a.value.calls := by
    intro a listed called
    have alone := accounted_callsOf handles node.arguments (start + 1) [a] (List.singleton_sublist.mpr listed)
    rw [Function.callsOf_singleton] at alone
    obtain ⟨inner, there, ⟨g, _, same⟩, _⟩ := alone.source _ called
    have beyond := List.le_snd_of_mem_zipIdx there
    have numbers := congrArg CallLabel.number same
    rw [CallLabel.number_of, CallLabel.number_of] at numbers
    omega
  have twice := (meets node.name f found).callAs_of_repeats
    (fun a => settled_of_mem_evaluateArgumentsBy) ran own there repeats
  have apart := (List.nodup_append.mp (once.sublist twice)).2.2
  obtain ⟨label, called⟩ := List.exists_mem_of_ne_nil _ repeats.2.2
  exact apart label called label called rfl

/-- The trace of a formula has the number and the name of the function of each body that ran, in order. If no
number comes twice, no more bodies ran than the formula has calls. None does if none of the calls that ran
repeats, and only then where functions meet errors. -/
theorem nodup_trace (handles : world.ReadByHandles) (e : Expr) :
    (e.trace world).map Prod.snd = (e.evaluate world).calls ∧
      (∀ ran ∈ e.trace world, ∃ node f, e.callNodes[ran.1]? = some node ∧
        world.function? node.name = some f ∧ f.name = ran.2) ∧
      (((e.trace world).map Prod.fst).Nodup → (e.evaluate world).calls.length ≤ e.callNodes.length) ∧
      ((∀ ran ∈ e.trace world, ∀ node, e.callNodes[ran.1]? = some node → ¬node.Repeats world) →
        ((e.trace world).map Prod.fst).Nodup) ∧
      (world.MeetErrors → ((e.trace world).map Prod.fst).Nodup →
        ∀ ran ∈ e.trace world, ∀ node, e.callNodes[ran.1]? = some node → ¬node.Repeats world) := by
  have all := accounted_evaluateBy handles e 0
  have names := map_snd_trace handles e
  have numbers : (e.trace world).map Prod.fst = (e.evaluateBy world 0).calls.map CallLabel.number := by
    rw [trace, List.map_map]
    rfl
  have known : ∀ ran ∈ e.trace world, ∃ node f, e.callNodes[ran.1]? = some node ∧
      world.function? node.name = some f ∧ f.name = ran.2 ∧
        CallLabel.of ran.1 f.name ∈ (node.evaluateBy world ran.1).calls ∧
          (node.evaluateBy world ran.1).calls.Subperm (e.evaluateBy world 0).calls := by
    intro ran among
    obtain ⟨label, called, rfl⟩ := List.mem_map.mp among
    obtain ⟨⟨node, number⟩, there, ⟨f, found, rfl⟩, own, within⟩ := all.source label called
    rw [CallLabel.number_of, CallLabel.name_of]
    exact ⟨node, f, List.mk_mem_zipIdx_iff_getElem?.mp there, found, rfl, own, within⟩
  refine ⟨names, fun ran among => ?_, fun once => ?_, fun never => ?_, fun meets once ran among => ?_⟩
  · obtain ⟨node, f, there, found, named, _⟩ := known ran among
    exact ⟨node, f, there, found, named⟩
  · have inside : (e.trace world).map Prod.fst ⊆ List.range e.callNodes.length := by
      intro number among
      obtain ⟨ran, listed, rfl⟩ := List.mem_map.mp among
      obtain ⟨node, _, there, _⟩ := known ran listed
      exact List.mem_range.mpr (List.getElem?_eq_some_iff.mp there).1
    have short := (once.subperm inside).length_le
    rwa [List.length_map, List.length_range, ← List.length_map (f := Prod.snd), names] at short
  · have total : ((e.trace world).map Prod.fst).Subperm ((e.callNodes.zipIdx 0).map Prod.snd) := by
      rw [numbers]
      refine all.once fun node there ran => ?_
      obtain ⟨label, called, same⟩ := List.mem_map.mp ran
      refine never _ (List.mem_map_of_mem called) node.1 ?_
      rw [same]
      exact List.mem_zipIdx_iff_getElem?.mp there
    rw [List.zipIdx_map_snd] at total
    obtain ⟨order, same, within⟩ := total
    exact same.nodup_iff.mp (List.Nodup.sublist within List.nodup_range')
  · intro node there repeats
    obtain ⟨node', f, there', found, _, own, _, same, within⟩ := known ran among
    obtain rfl := Option.some.inj (there'.symm.trans there)
    rw [numbers] at once
    exact not_nodup_of_repeats handles meets found own repeats
      (same.nodup_iff.mp ((List.Nodup.of_map _ once).sublist within))

/-- The surroundings with nothing but the library. -/
def bareSurroundings : Surroundings where
  resolve _ := .error (.plain .reference)
  value _ := .empty
  format _ := none
  function? := FunctionTable.empty.resolve? ""

/-- The sum of an error. -/
def failingSum : Expr := .call "SUM" [.literal (.error (.plain .division)) none] none

/-- The absolute value of the sum of an error. -/
def absoluteSum : Expr := .call "ABS" [failingSum] none

/-- The sum of an error runs once by itself, and twice when its absolute value is taken. -/
theorem trace_absoluteSum :
    failingSum.trace bareSurroundings = [(0, "SUM")] ∧
      (∀ ran ∈ failingSum.trace bareSurroundings, ∀ node,
        failingSum.callNodes[ran.1]? = some node → ¬node.Repeats bareSurroundings) ∧
      absoluteSum.trace bareSurroundings = [(1, "SUM"), (0, "ABS"), (1, "SUM")] ∧
      ∃ ran ∈ absoluteSum.trace bareSurroundings, ∃ node,
        absoluteSum.callNodes[ran.1]? = some node ∧ node.Repeats bareSurroundings := by
  have single : failingSum.trace bareSurroundings = [(0, "SUM")] := by decide +kernel
  have double : absoluteSum.trace bareSurroundings = [(1, "SUM"), (0, "ABS"), (1, "SUM")] := by
    decide +kernel
  have handles : bareSurroundings.ReadByHandles := fun _ _ found =>
    FunctionTable.readsByHandles_of_resolve? (fun _ none => absurd none List.not_mem_nil) found
  have meets : bareSurroundings.MeetErrors := fun _ _ found =>
    FunctionTable.meetsErrors_of_resolve? (fun _ none => absurd none List.not_mem_nil) found
  obtain ⟨_, _, _, _, alone⟩ := nodup_trace handles failingSum
  obtain ⟨_, _, _, once, _⟩ := nodup_trace handles absoluteSum
  refine ⟨single, alone meets (by rw [single]; decide), double, ?_⟩
  by_contra never
  have apart := once fun ran among node there repeats => never ⟨ran, among, node, there, repeats⟩
  rw [double] at apart
  exact absurd apart (by decide)

end Expr

end Spreadsheet
