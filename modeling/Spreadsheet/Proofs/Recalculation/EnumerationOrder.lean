import Mathlib.Data.List.Perm.Basic
import Spreadsheet.Proofs.Recalculation.Orders
import Spreadsheet.Proofs.Recalculation.RecordedDependencies

/-!
# Schedules and the order of enumeration

Formulas are scheduled in whatever order they are enumerated, and the formulas that read what has
changed are collected from wherever one starts. Neither shows in the outcome: the needs and the counts
of unmet needs depend on which formulas there are, of those that are ready the first by turn runs, and
what is left for the search for cycles and the relaxed order is sorted first.
-/
namespace Spreadsheet

/-! ### Needs -/

namespace Needs

/-- Two needs can be added in either order. -/
theorem connect_connect (edges : PositionMap PositionSet) (writer reader writer' reader' : Position) :
    connect (connect edges writer reader) writer' reader' =
      connect (connect edges writer' reader') writer reader := by
  have swapped : ∀ readers : PositionSet, (readers.insert reader).insert reader' =
      (readers.insert reader').insert reader := by
    intro readers
    apply PositionSet.ext
    intro q
    rw [PositionSet.mem_insert, PositionSet.mem_insert, PositionSet.mem_insert,
      PositionSet.mem_insert, or_left_comm]
  apply Std.ExtTreeMap.ext_getElem?
  intro p
  simp only [connect, Std.ExtTreeMap.getElem?_insert, Std.LawfulEqOrd.compare_eq_iff_eq]
  by_cases first : writer = p
  · subst first
    by_cases second : writer' = writer
    · simp [second, swapped]
    · simp [second]
  · by_cases second : writer' = p
    · simp [first, second]
    · simp [first, second]

/-- The needs of a list do not depend on its order. -/
theorem ofList_congr {list list' : List Need} (reordered : list.Perm list') :
    ofList list = ofList list' := by
  have commutes : RightCommutative fun (edges : PositionMap PositionSet) (n : Need) =>
      connect edges n.writer n.reader :=
    ⟨fun edges n n' => connect_connect edges n.writer n.reader n'.writer n'.reader⟩
  have added : ∀ {few few' : List Need}, few.Perm few' →
      few.foldl (fun edges n => connect edges n.writer n.reader) ∅ =
        few'.foldl (fun edges n => connect edges n.writer n.reader) ∅ :=
    fun same => same.foldl_eq _
  rw [ofList, added reordered, added (reordered.filter Need.firm), ofList]

end Needs

namespace Schedule

variable {vertices vertices' : List Position}

/-- Formulas in another order make the same set. -/
theorem members_congr (reordered : vertices.Perm vertices') :
    Std.ExtTreeSet.ofList vertices compare = Std.ExtTreeSet.ofList vertices' compare := by
  apply PositionSet.ext
  intro p
  rw [PositionSet.mem_ofList, PositionSet.mem_ofList, reordered.mem_iff]

/-- The needs among formulas do not depend on the order in which these are enumerated. -/
theorem needs_congr (d : Dependencies) (spills : Spills) (reordered : vertices.Perm vertices') :
    needs d spills vertices = needs d spills vertices' := by
  have outputs := reordered.map fun p => (p, outputZone spills p)
  have each : ∀ members reader zone,
      (needsOf spills members (vertices.map fun p => (p, outputZone spills p)) reader zone).Perm
        (needsOf spills members (vertices'.map fun p => (p, outputZone spills p)) reader zone) := by
    intro members reader zone
    unfold needsOf
    split
    · exact .refl _
    · exact outputs.filterMap _
  unfold needs
  rw [members_congr reordered]
  apply Needs.ofList_congr
  apply List.Perm.trans (reordered.flatMap_right _)
  apply List.Perm.flatMap_left
  intro reader _
  apply List.Perm.flatMap_left
  intro zone _
  exact each _ reader zone

/-! ### Orders -/

/-- The number of unmet needs does not depend on the order of the formulas that may be needed. -/
theorem unmet_congr (edges : PositionMap PositionSet) (done : List Position) (q : Position)
    (reordered : vertices.Perm vertices') :
    unmet edges vertices done q = unmet edges vertices' done q :=
  reordered.countP_eq _

/-- Formulas wait for the same in any order. -/
theorem waitingCounts_congr (edges : PositionMap PositionSet) (distinct : vertices.Nodup)
    (reordered : vertices.Perm vertices') :
    waitingCounts edges vertices = waitingCounts edges vertices' := by
  apply Std.ExtTreeMap.ext_getElem?
  intro q
  rw [getElem?_waitingCounts edges distinct, getElem?_waitingCounts edges (reordered.nodup distinct),
    unmet_congr edges [] q reordered]
  simp only [reordered.mem_iff]

/-- The start does not depend on the order of the formulas. -/
theorem start_congr (edges : Needs) (priority : Position → Nat) (distinct : vertices.Nodup)
    (reordered : vertices.Perm vertices') :
    Progress.start edges priority vertices = Progress.start edges priority vertices' := by
  unfold Progress.start
  rw [waitingCounts_congr edges.all distinct reordered, waitingCounts_congr edges.firm distinct reordered]

/-- The strict order does not depend on the order of enumeration. -/
theorem strictOrder_congr (edges : Needs) (priority : Position → Nat) (distinct : vertices.Nodup)
    (reordered : vertices.Perm vertices') :
    strictOrder edges priority vertices = strictOrder edges priority vertices' := by
  unfold strictOrder
  rw [start_congr edges priority distinct reordered, reordered.length_eq]

/-- A formula has its turn before another one or is the same. -/
def atMost (priority : Position → Nat) (p q : Position) : Bool :=
  (compare (Turn.mk (priority p) p) (Turn.mk (priority q) q)).isLE

variable {priority : Position → Nat} {p q u : Position}

/-- Turns are passed on. -/
theorem atMost_trans (first : atMost priority p q = true) (second : atMost priority q u = true) :
    atMost priority p u = true :=
  Std.TransOrd.isLE_trans first second

/-- Of two formulas one has its turn first, or it is the same one. -/
theorem atMost_total (priority : Position → Nat) (p q : Position) :
    (atMost priority p q || atMost priority q p) = true := by
  have swapped : compare (Turn.mk (priority q) q) (Turn.mk (priority p) p) =
      (compare (Turn.mk (priority p) p) (Turn.mk (priority q) q)).swap := Std.OrientedOrd.eq_swap
  rw [atMost, atMost, swapped]
  cases compare (Turn.mk (priority p) p) (Turn.mk (priority q) q) <;> rfl

/-- Formulas of the same turn are the same, whatever their priority. -/
theorem atMost_antisymm (before : atMost priority p q = true) (behind : atMost priority q p = true) :
    p = q := by
  have same : compare (Turn.mk (priority p) p) (Turn.mk (priority q) q) = .eq :=
    Std.OrientedCmp.isLE_antisymm before behind
  exact congrArg Turn.position (Std.LawfulEqOrd.eq_of_compare same)

/-- Formulas sorted by turn do not depend on the order in which they come. -/
theorem mergeSort_congr (priority : Position → Nat) (reordered : vertices.Perm vertices') :
    vertices.mergeSort (atMost priority) = vertices'.mergeSort (atMost priority) := by
  have ascends : ∀ list : List Position,
      (list.mergeSort (atMost priority)).Pairwise fun p q => atMost priority p q = true :=
    List.pairwise_mergeSort (fun _ _ _ => atMost_trans) (atMost_total priority)
  have same : (vertices.mergeSort (atMost priority)).Perm (vertices'.mergeSort (atMost priority)) := calc
    (vertices.mergeSort (atMost priority)).Perm vertices := List.mergeSort_perm vertices _
    vertices.Perm vertices' := reordered
    vertices'.Perm (vertices'.mergeSort (atMost priority)) := (List.mergeSort_perm vertices' _).symm
  exact same.eq_of_pairwise (fun _ _ _ _ => atMost_antisymm) (ascends vertices) (ascends vertices')

/-- The schedule of formulas does not depend on the order in which they are enumerated. -/
theorem ofVertices_congr (d : Dependencies) (spills : Spills) (priority : Position → Nat)
    (distinct : vertices.Nodup) (reordered : vertices.Perm vertices') :
    ofVertices d spills priority vertices = ofVertices d spills priority vertices' := by
  let edges := needs d spills vertices'
  have first : strictOrder edges priority vertices = strictOrder edges priority vertices' :=
    strictOrder_congr edges priority distinct reordered
  have rest := reordered.filter fun p => !(strictOrder edges priority vertices').contains p
  have sorted := mergeSort_congr priority rest
  unfold atMost at sorted
  unfold ofVertices
  rw [needs_congr d spills reordered]
  dsimp only
  rw [first, sorted]

/-! ### Closures -/

/-- The formulas of a closure come in ascending order, each once. -/
theorem pairwise_closure (d : Dependencies) (seeds : List Position) :
    (closure d seeds).Pairwise fun p q => compare p q = .lt := by
  unfold closure
  exact Std.ExtTreeSet.ordered_toList

/-- The closure of formulas depends neither on their order nor on how often they are given. -/
theorem closure_congr {d : Dependencies} (indexed : d.Indexed) {seeds seeds' : List Position}
    (same : ∀ p, p ∈ seeds ↔ p ∈ seeds') : closure d seeds = closure d seeds' := by
  have reached : ∀ q, q ∈ closure d seeds ↔ q ∈ closure d seeds' := fun q => by
    simp only [mem_closure_iff indexed, same]
  refine List.Perm.eq_of_pairwise (fun p q _ _ ahead behind => ?_) (pairwise_closure d seeds)
    (pairwise_closure d seeds')
    ((List.perm_ext_iff_of_nodup (nodup_closure d seeds) (nodup_closure d seeds')).mpr reached)
  exact absurd behind (Std.OrientedCmp.not_lt_of_lt ahead)

/-- After any updates of the dependencies, the formulas of a list get the same order and the same
cycles, in the same sequence, however they are enumerated; and the closure of a list of formulas is
the ascending list, each once, of all that can be reached from one of them by going to its readers any
number of times, however often and in whatever order they are given. -/
theorem enumeration_irrelevant (updates : List Dependencies.Update) (spills : Spills)
    (priority : Position → Nat) :
    (∀ vertices vertices' : List Position, vertices.Nodup → vertices.Perm vertices' →
      ofVertices (.updated updates) spills priority vertices =
        ofVertices (.updated updates) spills priority vertices') ∧
      ∀ seeds : List Position,
        (closure (.updated updates) seeds).Pairwise (fun p q => compare p q = .lt) ∧
        (∀ q, q ∈ closure (.updated updates) seeds ↔
          ∃ p ∈ seeds, Relation.ReflTransGen
            (fun p q => q ∈ directReaders (.updated updates) p) p q) ∧
        ∀ seeds' : List Position, (∀ p, p ∈ seeds ↔ p ∈ seeds') →
          closure (.updated updates) seeds = closure (.updated updates) seeds' := by
  have indexed : (Dependencies.updated updates).Indexed := Dependencies.indexed_updated updates
  constructor
  · intro vertices vertices' distinct reordered
    exact ofVertices_congr _ spills priority distinct reordered
  · intro seeds
    refine ⟨pairwise_closure _ seeds, fun q => mem_closure_iff indexed seeds, ?_⟩
    intro seeds' same
    exact closure_congr indexed same

/-- Two formulas that read each other's cells and one that reads the first of them are recorded. -/
def mutualPair : List Dependencies.Update :=
  [(⟨0, 0, 0⟩, 1), (⟨0, 0, 1⟩, 0), (⟨0, 0, 2⟩, 0)].map fun (reader, column) =>
    .record reader (.reference (.cell none (.clamp 0 column false false)) "" none) (·.boundedZone? 0)

/-- A pair of formulas on a cycle, one behind them and one that reads nothing, all of one priority, are
scheduled in two orders. -/
theorem enumeration_irrelevant_mutualPair :
    [Position.mk 0 0 0, ⟨0, 0, 1⟩, ⟨0, 0, 2⟩, ⟨0, 0, 3⟩].Nodup ∧
      [Position.mk 0 0 0, ⟨0, 0, 1⟩, ⟨0, 0, 2⟩, ⟨0, 0, 3⟩].Perm
        [⟨0, 0, 2⟩, ⟨0, 0, 3⟩, ⟨0, 0, 1⟩, ⟨0, 0, 0⟩] ∧
      ofVertices (.updated mutualPair) .empty (fun _ => 0)
          [⟨0, 0, 0⟩, ⟨0, 0, 1⟩, ⟨0, 0, 2⟩, ⟨0, 0, 3⟩] =
        ofVertices (.updated mutualPair) .empty (fun _ => 0)
          [⟨0, 0, 2⟩, ⟨0, 0, 3⟩, ⟨0, 0, 1⟩, ⟨0, 0, 0⟩] ∧
      closure (.updated mutualPair) [⟨0, 0, 0⟩, ⟨0, 0, 3⟩] =
        closure (.updated mutualPair) [⟨0, 0, 3⟩, ⟨0, 0, 0⟩, ⟨0, 0, 3⟩] := by
  have distinct : [Position.mk 0 0 0, ⟨0, 0, 1⟩, ⟨0, 0, 2⟩, ⟨0, 0, 3⟩].Nodup := by decide
  have reordered : [Position.mk 0 0 0, ⟨0, 0, 1⟩, ⟨0, 0, 2⟩, ⟨0, 0, 3⟩].Perm
      [⟨0, 0, 2⟩, ⟨0, 0, 3⟩, ⟨0, 0, 1⟩, ⟨0, 0, 0⟩] := by decide
  have same : ∀ p : Position, p ∈ [Position.mk 0 0 0, ⟨0, 0, 3⟩] ↔
      p ∈ [Position.mk 0 0 3, ⟨0, 0, 0⟩, ⟨0, 0, 3⟩] := by
    intro p
    simp only [List.mem_cons, List.not_mem_nil, or_false]
    tauto
  have irrelevant := enumeration_irrelevant mutualPair .empty fun _ => 0
  exact ⟨distinct, reordered, irrelevant.1 _ _ distinct reordered, (irrelevant.2 _).2.2 _ same⟩

end Schedule

end Spreadsheet
