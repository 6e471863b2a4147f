import Spreadsheet.Recalculation.Dependencies
import Spreadsheet.Recalculation.Spills

/-!
# Schedules

A formula has to run after the formulas whose output it reads. Reading the cell of a formula is a
firm need; reading another position of the array it spilled is a soft one, which may be set aside.
Formulas on a cycle of firm needs can never run. All others get an order in which firm needs are
met, and soft ones too where that is possible.
-/
namespace Spreadsheet

/-- The turn of a formula among those that are ready: by priority, then by position. -/
structure Turn where
  priority : Nat
  position : Position
deriving DecidableEq, Repr

namespace Turn

/-- Order by priority and then by position. -/
def order : Turn → Turn → Ordering :=
  compareLex (compareOn Turn.priority) (compareOn Turn.position)

instance : Ord Turn := ⟨order⟩

instance : Std.TransOrd Turn :=
  inferInstanceAs (Std.TransCmp (compareLex (compareOn Turn.priority) (compareOn Turn.position)))

instance : Std.LawfulEqOrd Turn where
  eq_of_compare {a b} same := by
    obtain ⟨priorities, positions⟩ := Ordering.then_eq_eq.mp same
    cases a
    cases b
    exact congr (congrArg mk (Std.LawfulEqOrd.eq_of_compare priorities))
      (Std.LawfulEqOrd.eq_of_compare positions)

end Turn

/-- For each writer the formulas that read what it writes, in ascending order. -/
structure Needs where
  /-- Readers of any position of the output. -/
  all : PositionMap PositionSet
  /-- Readers of the cell of the formula itself. -/
  firm : PositionMap PositionSet

/-- One need: `reader` reads what `writer` writes. -/
structure Need where
  writer : Position
  reader : Position
  firm : Bool
deriving DecidableEq, Repr

namespace Needs

/-- Add an edge to a map of readers. -/
def connect (edges : PositionMap PositionSet) (writer reader : Position) :
    PositionMap PositionSet :=
  edges.insert writer (((edges[writer]?).getD ∅).insert reader)

/-- The needs of a list. -/
def ofList (needs : List Need) : Needs where
  all := needs.foldl (fun edges n => connect edges n.writer n.reader) ∅
  firm := (needs.filter Need.firm).foldl (fun edges n => connect edges n.writer n.reader) ∅

/-- The readers of a writer in ascending order. -/
def readers (edges : PositionMap PositionSet) (writer : Position) : List Position :=
  ((edges[writer]?).getD ∅).toList

end Needs

/-- An order of formulas, and the groups that can never be ordered. -/
structure Schedule where
  order : List Position
  cycles : List (List Position)
deriving DecidableEq, Repr

namespace Schedule

/-- The formulas on cycles. -/
def cyclic (s : Schedule) : List Position := s.cycles.flatten

/-- The zone a formula writes to: the zone of its array, or its cell. -/
def outputZone (spills : Spills) (p : Position) : Zone :=
  (spills.activeZone? p).getD (.single p)

/-- The other formulas that read the cell of a formula. -/
def directReaders (dependencies : Dependencies) (p : Position) : List Position :=
  (dependencies.readersOf p).filter (· != p)

/-- Everything reached from a list of positions; `fuel` bounds the number of steps. -/
def reach (next : Position → List Position) : Nat → PositionSet → List Position → PositionSet
  | 0, seen, _ => seen
  | _, seen, [] => seen
  | fuel + 1, seen, p :: queue =>
    let found := (next p).filter fun q => !seen.contains q
    reach next fuel (seen.insertMany found) (queue ++ found)

/-- The positions given and the formulas that read them, directly or not, in ascending order. -/
def closure (dependencies : Dependencies) (seeds : List Position) : List Position :=
  let start := distinctPositions seeds
  (reach (directReaders dependencies) (start.length + dependencies.precedents.size)
    (.ofList start compare) start).toList

/-- The needs of one formula that come from one zone it reads. A formula that reads its own array
has no need, one that reads its own cell needs itself. -/
def needsOf (spills : Spills) (members : PositionSet) (vertices : List (Position × Zone))
    (reader : Position) (read : Zone) : List Need :=
  if read.isSingle then
    let cell := read.topLeft
    let writer := (spills.owner? cell).getD cell
    if members.contains writer && (writer != reader || cell == reader) then
      [⟨writer, reader, cell == writer⟩]
    else []
  else
    vertices.filterMap fun (writer, output) =>
      let readsCell := read.contains writer
      if output.intersects read && (writer != reader || readsCell) then
        some ⟨writer, reader, readsCell⟩
      else none

/-- The needs among a list of formulas. -/
def needs (dependencies : Dependencies) (spills : Spills) (vertices : List Position) : Needs :=
  let members : PositionSet := .ofList vertices compare
  let outputs := vertices.map fun p => (p, outputZone spills p)
  .ofList (vertices.flatMap fun reader =>
    (dependencies.zonesOf reader).flatMap (needsOf spills members outputs reader))

/-- For each of a list of formulas the number of the others that it waits for. -/
def waitingCounts (edges : PositionMap PositionSet) (vertices : List Position) :
    PositionMap Nat :=
  let start : PositionMap Nat := .ofList (vertices.map fun p => (p, 0)) compare
  vertices.foldl
    (fun counts writer =>
      (Needs.readers edges writer).foldl (fun counts reader => counts.modify reader (· + 1))
        counts)
    start

/-- The state of ordering: for each formula how many needs of it are not yet met, all and firm
ones, the formulas that are ready, and those that have run, the latest first. -/
structure Progress where
  waiting : PositionMap Nat
  waitingFirmly : PositionMap Nat
  ready : Std.ExtTreeSet Turn
  done : List Position

namespace Progress

/-- The start: what waits for nothing is ready. -/
def start (edges : Needs) (priority : Position → Nat) (vertices : List Position) : Progress :=
  let waiting := waitingCounts edges.all vertices
  { waiting := waiting
    waitingFirmly := waitingCounts edges.firm vertices
    ready := .ofList ((waiting.toList.filter fun (_, n) => n == 0).map fun (p, _) =>
      ⟨priority p, p⟩) compare
    done := [] }

/-- One formula less to wait for. A formula that waits for nothing more becomes ready, unless it
has run. -/
def satisfy (priority : Position → Nat) (s : Progress) (reader : Position) : Progress :=
  match s.waiting[reader]? with
  | none => s
  | some n =>
    let s := { s with waiting := s.waiting.insert reader (n - 1) }
    if n - 1 = 0 ∧ reader ∉ s.done then
      { s with ready := s.ready.insert ⟨priority reader, reader⟩ }
    else s

/-- Run a formula. -/
def perform (edges : Needs) (priority : Position → Nat) (s : Progress) (p : Position) :
    Progress :=
  let s := { s with ready := s.ready.erase ⟨priority p, p⟩, done := p :: s.done }
  let s := (Needs.readers edges.all p).foldl (satisfy priority) s
  { s with
    waitingFirmly := (Needs.readers edges.firm p).foldl
      (fun counts reader => counts.modify reader (· - 1)) s.waitingFirmly }

/-- Run what is ready in order of turns, and when nothing is, what `force` names; `steps` bounds
the number of formulas run. -/
def run (edges : Needs) (priority : Position → Nat) (force : Progress → Option Position) :
    Nat → Progress → Progress
  | 0, s => s
  | steps + 1, s =>
    match (s.ready.min?.map Turn.position) <|> force s with
    | some p => run edges priority force steps (s.perform edges priority p)
    | none => s

/-- The first by turn of the formulas that have not run and wait for nothing firmly. -/
def leastBound (priority : Position → Nat) (vertices : List Position) (s : Progress) :
    Option Position :=
  let free := vertices.filter fun p =>
    !s.done.contains p && (s.waitingFirmly[p]?).getD 0 == 0
  ((Std.ExtTreeSet.ofList (free.map fun p => Turn.mk (priority p) p) compare).min?).map
    Turn.position

end Progress

/-- The order in which all needs are met, as far as there is one. -/
def strictOrder (edges : Needs) (priority : Position → Nat) (vertices : List Position) :
    List Position :=
  ((Progress.start edges priority vertices).run edges priority (fun _ => none)
    vertices.length).done.reverse

/-- The order in which soft needs are set aside when nothing else can run. -/
def relaxedOrder (edges : Needs) (priority : Position → Nat) (vertices : List Position) :
    List Position :=
  ((Progress.start edges priority vertices).run edges priority
    (Progress.leastBound priority vertices) vertices.length).done.reverse

/-- The readers of a formula that belong to a set. -/
def readersWithin (edges : PositionMap PositionSet) (members : PositionSet) (p : Position) :
    List Position :=
  (Needs.readers edges p).filter members.contains

/-- A search for groups of formulas that need each other. Formulas are numbered as they are met. The
low number of a formula is the least number of a formula that it is known to get back to. Formulas
stay on a stack, the latest first, until their group is known. -/
structure Search where
  /-- How many formulas have been numbered. -/
  count : Nat
  indices : PositionMap Nat
  lows : PositionMap Nat
  stack : List Position
  onStack : PositionSet
  /-- The groups found, the first one first. -/
  groups : List (List Position)

namespace Search

/-- The start: no formula has been met. -/
def start : Search := ⟨0, ∅, ∅, [], ∅, []⟩

/-- The number of a formula. -/
def index (s : Search) (p : Position) : Nat := (s.indices[p]?).getD 0

/-- The low number of a formula. -/
def low (s : Search) (p : Position) : Nat := (s.lows[p]?).getD 0

/-- Number a formula and put it on the stack. -/
def enter (s : Search) (p : Position) : Search :=
  { s with
    count := s.count + 1
    indices := s.indices.insert p s.count
    lows := s.lows.insert p s.count
    stack := p :: s.stack
    onStack := s.onStack.insert p }

/-- Lower the low number of a formula to another number, if that is less. -/
def lower (s : Search) (p : Position) (n : Nat) : Search :=
  { s with lows := s.lows.insert p (min (s.low p) n) }

/-- What is taken from a stack down to a formula, with the formula, and what stays. -/
def popThrough (p : Position) : List Position → List Position × List Position
  | [] => ([], [])
  | q :: rest =>
    if q = p then ([q], rest)
    else
      let (taken, below) := popThrough p rest
      (q :: taken, below)

/-- Leave a formula. If it gets back to none that was met before it, what stands on the stack down to
it is a group. -/
def leave (s : Search) (p : Position) : Search :=
  if s.low p = s.index p then
    let (taken, below) := popThrough p s.stack
    { s with
      stack := below
      onStack := taken.foldl (fun waiting q => waiting.erase q) s.onStack
      groups := s.groups ++ [taken.mergeSort fun a b => (compare a b).isLE] }
  else s

/-- Go from a formula to one that needs it: `visit` it if it has not been met, and get back to what it
gets back to, or to the formula itself if it is on the stack. -/
def follow (visit : Search → Position → Search) (p : Position) (s : Search) (q : Position) :
    Search :=
  if s.indices.contains q then
    if s.onStack.contains q then s.lower p (s.index q) else s
  else
    let s := visit s q
    s.lower p (s.low q)

/-- Visit a formula and all that is met from it for the first time; `depth` bounds how many visits are
made one inside the other. -/
def visit (next : Position → List Position) : Nat → Search → Position → Search
  | 0, s, _ => s
  | depth + 1, s, p => ((next p).foldl (follow (visit next depth) p) (s.enter p)).leave p

/-- Visit those of a list of formulas that have not been met. -/
def visitAll (next : Position → List Position) (depth : Nat) (s : Search)
    (vertices : List Position) : Search :=
  vertices.foldl (fun s p => if s.indices.contains p then s else visit next depth s p) s

end Search

/-- The largest groups of a list of formulas in which each needs each other. -/
def groupsAmong (edges : PositionMap PositionSet) (vertices : List Position) :
    List (List Position) :=
  let members : PositionSet := .ofList vertices compare
  (Search.visitAll (readersWithin edges members) members.size .start vertices).groups

/-- The cycles among a list of formulas: the groups of several formulas, and formulas that need
themselves. -/
def cyclesAmong (edges : PositionMap PositionSet) (vertices : List Position) :
    List (List Position) :=
  (groupsAmong edges vertices).filter fun group =>
    1 < group.length || group.head?.any fun p => (Needs.readers edges p).contains p

/-- The schedule of a list of formulas. -/
def ofVertices (dependencies : Dependencies) (spills : Spills) (priority : Position → Nat)
    (vertices : List Position) : Schedule :=
  let edges := needs dependencies spills vertices
  let first := strictOrder edges priority vertices
  let rest := (vertices.filter fun p => !first.contains p).mergeSort fun p q =>
    (compare (Turn.mk (priority p) p) (Turn.mk (priority q) q)).isLE
  let cycles := cyclesAmong edges.firm rest
  let free := rest.filter fun p => !cycles.flatten.contains p
  ⟨first ++ relaxedOrder edges priority free, cycles⟩

end Schedule

end Spreadsheet
