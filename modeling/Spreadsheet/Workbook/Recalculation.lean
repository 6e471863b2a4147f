import Spreadsheet.Recalculation.Schedule
import Spreadsheet.Workbook.Basic
import Spreadsheet.Workbook.Outcome

/-!
# Recalculation

A recalculation runs in rounds. A round takes the formulas that are due, schedules them together
with all that depend on them, and evaluates those that are due when their turn comes; a result
that differs from the last one makes its readers due. What becomes due after its turn waits for
the next round. When the rounds run out, what is left is dropped.
-/
namespace Spreadsheet

/-- What a formula comes to and the functions it called. -/
structure Computation where
  outcome : Outcome
  calls : List String

/-- Evaluate the formula at a position. Nothing changes. -/
def Workbook.compute (w : Workbook) (p : Position) : Computation :=
  match w.formula? p with
  | none => ⟨.single (.number 0) none, []⟩
  | some f =>
    match f.tree with
    | .error e => ⟨.fault e.message, []⟩
    | .ok e =>
      let world := w.surroundings ((w.registry.name? p.sheet).getD "")
      let evaluation := e.evaluate world
      let value := match evaluation.result with
        | .ok v => v
        | .error e => .error e
      ⟨.ofResult e value (e.format world), evaluation.calls⟩

/-- A round under way: the workbook, the formulas whose turn is still to come, and those that are
due to be evaluated in this round. -/
structure Round where
  workbook : Workbook
  pending : PositionSet
  due : PositionSet

namespace Round

/-- The round with other spilled arrays. -/
def withSpills (r : Round) (spills : Spills) : Round :=
  { r with workbook := { r.workbook with spills := spills } }

/-- Make a formula due: later in this round if its turn is still to come, else in the next. -/
def reschedule (r : Round) (p : Position) : Round :=
  if r.pending.contains p then { r with due := r.due.insert p }
  else { r with workbook := r.workbook.markDirty [p] }

/-- Make the formulas due that read one of the positions, other than `origin`. -/
def touch (r : Round) (origin : Position) (positions : List Position) : Round :=
  positions.foldl
    (fun r q =>
      ((r.workbook.dependencies.readersOf q).filter fun reader =>
        reader != origin && r.workbook.isFormula reader).foldl reschedule r)
    r

/-- Make the anchors due that were blocked around one of the positions, other than `origin`. -/
def wake (r : Round) (origin : Position) (positions : List Position) : Round :=
  positions.foldl
    (fun r q =>
      ((r.workbook.spills.blockedAround q).filter (· != origin)).foldl reschedule r)
    r

/-- Take its zone from an anchor whose turn is still to come. -/
def preempt (r : Round) (owner : Position) : Round :=
  let positions := ((r.workbook.spills.activeZone? owner).map Zone.positions).getD []
  let released := r.withSpills (r.workbook.spills.release owner)
  let r := (released.touch owner positions).wake owner positions
  { r with due := r.due.insert owner }

/-- The claim of an anchor as things stand. -/
def claim (r : Round) (anchor : Position) (rows columns : Nat) : Except Collision Zone :=
  let extent := match r.workbook.sheet? anchor.sheet with
    | some s => (s.rows, s.columns)
    | none => (0, 0)
  r.workbook.spills.checkClaim anchor rows columns extent.1 extent.2 r.workbook.hasContent

/-- The claim of an anchor after zones in its way have been taken from anchors whose turn is still
to come, at most `fuel` of them. -/
def clearWay (anchor : Position) (rows columns : Nat) : Nat → Round →
    Round × Except Collision Zone
  | 0, r => (r, r.claim anchor rows columns)
  | fuel + 1, r =>
    match r.claim anchor rows columns with
    | .error (.spill found owner) =>
      if r.pending.contains owner then clearWay anchor rows columns fuel (r.preempt owner)
      else (r, .error (.spill found owner))
    | result => (r, result)

/-- Spill an array, or note that it cannot be. The result is the value and format of the anchor. -/
def place (r : Round) (anchor : Position) (values : Grid Value)
    (formats : Grid (Option String)) : Round × Value × Option String :=
  let (rows, columns) := Grid.extent values
  let (r, result) := clearWay anchor rows columns r.workbook.spills.activeCount r
  let spills := r.workbook.spills
  match result with
  | .ok zone =>
    (r.withSpills (spills.claim anchor zone values formats), .array values, formats.first?.join)
  | .error collision =>
    (r.withSpills (spills.block anchor (.fromAnchor anchor rows columns)),
      .error (.ofCollision collision rows columns), none)

/-- The spill states of two moments are equal. -/
def sameState : Option SpillState → Option SpillState → Bool
  | none, none => true
  | some s, some t => s.same t
  | _, _ => false

/-- Give a single value no array, and an array its zone if it can have it. The result is the value
and format that the formula shows. -/
def settle (r : Round) (p : Position) : Outcome → Round × Value × Option String
  | .single value format => (r.withSpills (r.workbook.spills.release p), value, format)
  | .array values formats => r.place p values formats

/-- Keep the value and format of a formula. -/
def store (r : Round) (p : Position) (value : Value) (format : Option String) : Round :=
  { r with
    workbook := r.workbook.updateCell p fun c => c.mapFormula fun f =>
      { f with value := value, format := format } }

/-- Make due what has to know that the array of a formula went from one zone to another. -/
def announce (r : Round) (p : Position) (oldZone newZone : Option Zone) : Round :=
  let old := (oldZone.map Zone.positions).getD []
  let new := (newZone.map Zone.positions).getD []
  let r := r.touch p (sortedPositions (p :: (old ++ new)))
  r.wake p (old.filter fun q => !newZone.any (·.contains q))

/-- Publish what a formula came to. If that differs from what it published before, its readers
become due, and so do anchors that were blocked where its array has given way. -/
def publish (r : Round) (p : Position) (outcome : Outcome) : Round :=
  match r.workbook.formula? p with
  | none => r
  | some f =>
    let (settled, value, format) := r.settle p outcome
    let stored := settled.store p value format
    let unchanged := f.value.same value && f.format == format &&
      sameState (settled.workbook.spills.state? p) (r.workbook.spills.state? p)
    if unchanged then stored
    else
      stored.announce p (r.workbook.spills.activeZone? p)
        (settled.workbook.spills.activeZone? p)

/-- The turn of a formula has come. -/
def begin (r : Round) (p : Position) : Round := { r with pending := r.pending.erase p }

/-- Evaluate a formula and publish what it comes to. -/
def evaluate (r : Round) (p : Position) : Round :=
  let computation := r.workbook.compute p
  let w := { r.workbook with journal := ⟨p, computation.calls⟩ :: r.workbook.journal }
  publish { r with workbook := w } p computation.outcome

/-- The turn of a formula: evaluate it if it is due. -/
def turn (r : Round) (p : Position) : Round :=
  let r := r.begin p
  if r.due.contains p then r.evaluate p else r

end Round

namespace Workbook

/-- The formulas to be evaluated: those marked, and those that read a changed position. -/
def due (w : Workbook) : PositionSet :=
  .ofList ((w.dirty.toList ++ w.changed.toList.flatMap w.dependencies.readersOf).filter
    w.isFormula) compare

/-- Schedule formulas and all that depend on them. Formulas entered earlier come first. -/
def schedule (w : Workbook) (due : List Position) : Schedule :=
  .ofVertices w.dependencies w.spills
    (fun p => ((w.formula? p).map Formula.sequence).getD 0)
    ((Schedule.closure w.dependencies due).filter w.isFormula)

/-- The workbook with nothing marked. -/
def unmarked (w : Workbook) : Workbook := { w with dirty := ∅, changed := ∅ }

/-- The schedule of a round. -/
def plan (w : Workbook) : Schedule := w.schedule w.due.toList

/-- The start of a round. Formulas on cycles get their error first. -/
def opening (w : Workbook) (plan : Schedule) : Round :=
  plan.cyclic.foldl (fun r p => r.publish p .circular)
    ⟨w.unmarked, .ofList plan.order compare, w.due⟩

/-- One round. -/
def recalculateOnce (w : Workbook) : Workbook :=
  if w.due.isEmpty then w.unmarked
  else
    let plan := w.plan
    (plan.order.foldl Round.turn (w.opening plan)).workbook

/-- Recalculate in at most `rounds` rounds. -/
def recalculateWithin : Nat → Workbook → Workbook
  | 0, w => w.unmarked
  | rounds + 1, w =>
    if w.dirty.isEmpty && w.changed.isEmpty then w
    else recalculateWithin rounds w.recalculateOnce

/-- Bring all results up to date. -/
def recalculate (w : Workbook) : Workbook := recalculateWithin (w.settings.rounds + 1) w

end Workbook

end Spreadsheet
