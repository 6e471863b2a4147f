import Spreadsheet.Evaluation.Basic
import Spreadsheet.Proofs.Function.LabelledCalls

/-!
# Numbered calls

The calls of a tree are numbered as they are met from left to right, an outer one before those among its
arguments. Evaluated with a label for each call that tells its number, a tree has the same value, and runs the
same bodies in the same order.
-/
namespace Spreadsheet

/-! ### Labels -/

namespace CallLabel

/-- The label of a call, with its number and the name of its function. -/
def of (number : Nat) (name : String) : String :=
  String.ofList (List.replicate number '|' ++ ':' :: name.toList)

/-- The number in a label. -/
def number (label : String) : Nat := (label.toList.takeWhile (· == '|')).length

/-- The name in a label. -/
def name (label : String) : String := String.ofList (label.toList.dropWhile (· == '|')).tail

/-- A label tells the number. -/
@[simp] theorem number_of (n : Nat) (s : String) : number (of n s) = n := by
  unfold number of
  rw [String.toList_ofList, List.takeWhile_append_of_pos fun c among => by
    rw [List.eq_of_mem_replicate among]
    rfl]
  simp

/-- A label tells the name. -/
@[simp] theorem name_of (n : Nat) (s : String) : name (of n s) = s := by
  unfold name of
  rw [String.toList_ofList, List.dropWhile_append_of_pos fun c among => by
    rw [List.eq_of_mem_replicate among]
    rfl]
  exact String.ofList_toList

end CallLabel

/-! ### Calls -/

/-- The functions that formulas know read by handles. -/
def Surroundings.ReadByHandles (world : Surroundings) : Prop :=
  ∀ name f, world.function? name = some f → f.ReadsByHandles

/-- The functions that formulas know meet errors. -/
def Surroundings.MeetErrors (world : Surroundings) : Prop :=
  ∀ name f, world.function? name = some f → f.MeetsErrors

/-- A call in a tree. -/
structure CallNode where
  name : String
  arguments : List Expr

namespace Expr

mutual

/-- The calls of a tree, from left to right, an outer one before those among its arguments. -/
def callNodes : Expr → List CallNode
  | .literal _ _ => []
  | .reference _ _ _ => []
  | .unary _ operand _ => operand.callNodes
  | .binary _ left right _ => left.callNodes ++ right.callNodes
  | .call name arguments _ => ⟨name, arguments⟩ :: callNodesOfAll arguments
  | .array rows _ => callNodesOfRows rows

/-- The calls of several trees. -/
def callNodesOfAll : List Expr → List CallNode
  | [] => []
  | e :: rest => e.callNodes ++ callNodesOfAll rest

/-- The calls of rows of trees. -/
def callNodesOfRows : List (List Expr) → List CallNode
  | [] => []
  | row :: rest => callNodesOfAll row ++ callNodesOfRows rest

end

mutual

/-- The value of a formula, with each call under a label of its own, numbered from `start`. -/
def evaluateBy (world : Surroundings) : Expr → Nat → Evaluation Value
  | .literal value _, _ => pure value
  | .reference target _ _, _ => pure (world.read target)
  | .unary operator operand _, start => do
    let v ← operand.evaluateBy world start
    return operator.apply v
  | .binary operator left right _, start => do
    let v ← left.evaluateBy world start
    let w ← right.evaluateBy world (start + left.callNodes.length)
    return operator.apply v w
  | .call name arguments _, start =>
    match world.function? name with
    | some f => f.callAs (CallLabel.of start f.name) (evaluateArgumentsBy world arguments (start + 1))
    | none => throw (.unknownFunction name)
  | .array rows _, start => do
    let values ← evaluateRowsBy world rows start
    return .array values

/-- The arguments of a call, with labels. -/
def evaluateArgumentsBy (world : Surroundings) : List Expr → Nat → List Argument
  | [], _ => []
  | e :: rest, start =>
    ⟨e, e.evaluateBy world start, none, fun _ => e.covered world, fun _ => e.format world⟩ ::
      evaluateArgumentsBy world rest (start + e.callNodes.length)

/-- The values of a row, with labels. -/
def evaluateRowBy (world : Surroundings) : List Expr → Nat → Evaluation (List Value)
  | [], _ => pure []
  | e :: rest, start => do
    let v ← e.evaluateBy world start
    let row ← evaluateRowBy world rest (start + e.callNodes.length)
    return v :: row

/-- The values of rows, with labels. -/
def evaluateRowsBy (world : Surroundings) : List (List Expr) → Nat → Evaluation (List (List Value))
  | [], _ => pure []
  | row :: rest, start => do
    let values ← evaluateRowBy world row start
    let rows ← evaluateRowsBy world rest (start + (callNodesOfAll row).length)
    return values :: rows

end

/-- The bodies that ran to find the value of a formula, in order, each by the number of its call and the name
of its function. -/
def trace (world : Surroundings) (e : Expr) : List (Nat × String) :=
  (e.evaluateBy world 0).calls.map fun label => (CallLabel.number label, CallLabel.name label)

/-! ### Labels change nothing -/

open Evaluation

variable {world : Surroundings}

mutual

/-- A formula has the same value and calls with labels as without. -/
theorem evaluateBy_renamed (handles : world.ReadByHandles) : ∀ (e : Expr) (start : Nat),
    (e.evaluateBy world start).renamed CallLabel.name = e.evaluate world
  | .literal _ _, _ => rfl
  | .reference _ _ _, _ => rfl
  | .unary operator operand _, start => by
    rw [evaluateBy, evaluate, renamed_bind, evaluateBy_renamed handles operand start]
    rfl
  | .binary operator left right _, start => by
    rw [evaluateBy, evaluate, renamed_bind, evaluateBy_renamed handles left start]
    refine bind_congr fun v => ?_
    rw [renamed_bind, evaluateBy_renamed handles right _]
    rfl
  | .call name arguments _, start => by
    rw [evaluateBy, evaluate]
    cases found : world.function? name with
    | none => rfl
    | some f =>
      dsimp only
      rw [(handles name f found).callAs_renamed, CallLabel.name_of,
        evaluateArgumentsBy_renamed handles arguments (start + 1), f.call_eq_callAs]
  | .array rows _, start => by
    rw [evaluateBy, evaluate, renamed_bind, evaluateRowsBy_renamed handles rows start]
    rfl

/-- The arguments of a call are the same with labels as without. -/
theorem evaluateArgumentsBy_renamed (handles : world.ReadByHandles) :
    ∀ (arguments : List Expr) (start : Nat),
      (evaluateArgumentsBy world arguments start).map (Argument.renamed CallLabel.name) =
      evaluateArguments world arguments
  | [], _ => rfl
  | e :: rest, start => by
    rw [evaluateArgumentsBy, evaluateArguments, List.map_cons, evaluateArgumentsBy_renamed handles rest _,
      ← evaluateBy_renamed handles e start]
    rfl

/-- The values of a row are the same with labels as without. -/
theorem evaluateRowBy_renamed (handles : world.ReadByHandles) :
    ∀ (row : List Expr) (start : Nat),
      (evaluateRowBy world row start).renamed CallLabel.name = evaluateRow world row
  | [], _ => rfl
  | e :: rest, start => by
    rw [evaluateRowBy, evaluateRow, renamed_bind, evaluateBy_renamed handles e start]
    refine bind_congr fun v => ?_
    rw [renamed_bind, evaluateRowBy_renamed handles rest _]
    rfl

/-- The values of rows are the same with labels as without. -/
theorem evaluateRowsBy_renamed (handles : world.ReadByHandles) :
    ∀ (rows : List (List Expr)) (start : Nat),
      (evaluateRowsBy world rows start).renamed CallLabel.name = evaluateRows world rows
  | [], _ => rfl
  | row :: rest, start => by
    rw [evaluateRowsBy, evaluateRows, renamed_bind, evaluateRowBy_renamed handles row start]
    refine bind_congr fun values => ?_
    rw [renamed_bind, evaluateRowsBy_renamed handles rest _]
    rfl

end

/-- The trace of a formula names the bodies that ran. -/
theorem map_snd_trace (handles : world.ReadByHandles) (e : Expr) :
    (e.trace world).map Prod.snd = (e.evaluate world).calls := by
  rw [← evaluateBy_renamed handles e 0, calls_renamed, trace, List.map_map]
  rfl

end Expr

end Spreadsheet
