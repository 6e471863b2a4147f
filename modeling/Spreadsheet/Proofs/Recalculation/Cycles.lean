import Mathlib.Data.Set.Finite.List
import Mathlib.Order.WellFounded
import Spreadsheet.Proofs.Recalculation.Reachability

/-!
# Cycles

A formula is on a cycle if it needs itself, directly or through others. A cycle lies among formulas
that are on cycles, and where each of some formulas needs another one of them there is one.
-/
namespace Spreadsheet

namespace Schedule

variable {edges : PositionMap PositionSet} {vertices : List Position} {p q : Position}

/-- A formula needs another one of a list. -/
def Needed (edges : PositionMap PositionSet) (vertices : List Position) (writer reader : Position) :
    Prop :=
  reader ∈ Needs.readers edges writer ∧ reader ∈ vertices

/-- The readers of a writer are listed once each. -/
theorem nodup_readers (edges : PositionMap PositionSet) (writer : Position) :
    (Needs.readers edges writer).Nodup :=
  PositionSet.nodup_toList _

/-- The readers of a formula within a list are those that need it. -/
theorem mem_readersWithin_iff (edges : PositionMap PositionSet) (vertices : List Position) :
    q ∈ readersWithin edges (.ofList vertices compare) p ↔ Needed edges vertices p q := by
  rw [readersWithin, List.mem_filter, Std.ExtTreeSet.contains_iff_mem, PositionSet.mem_ofList,
    Needed]

/-- To go to a reader within a list is to go to a formula that needs the first. -/
theorem steps_readersWithin (edges : PositionMap PositionSet) (vertices : List Position) :
    Steps (readersWithin edges (.ofList vertices compare)) = Needed edges vertices :=
  funext fun _ => funext fun _ => propext (mem_readersWithin_iff edges vertices)

/-- A map made from a list of positions by a function. -/
theorem getElem?_ofList_map {α : Type} (f : Position → α) {positions : List Position}
    (distinct : positions.Nodup) (p : Position) :
    (Std.ExtTreeMap.ofList (positions.map fun p => (p, f p)) compare)[p]? =
      if p ∈ positions then some (f p) else none := by
  split
  · rename_i listed
    refine Std.ExtTreeMap.getElem?_ofList_of_mem Std.ReflCmp.compare_self ?_
      (List.mem_map_of_mem listed)
    rw [List.pairwise_map]
    exact distinct.imp fun differ same => differ (Std.LawfulEqOrd.eq_of_compare same)
  · rename_i missing
    refine Std.ExtTreeMap.getElem?_ofList_of_contains_eq_false ?_
    rw [← Bool.not_eq_true, List.contains_iff_mem, List.map_map]
    simpa using missing

/-- A cycle lies among formulas that are on cycles. -/
theorem transGen_needed_of_cyclic {others : List Position}
    (cyclic : ∀ q ∈ vertices, Relation.TransGen (Needed edges vertices) q q → q ∈ others)
    (path : Relation.TransGen (Needed edges vertices) p q)
    (back : Relation.ReflTransGen (Needed edges vertices) q p) :
    Relation.TransGen (Needed edges others) p q := by
  induction path with
  | single need =>
    exact .single ⟨need.1, cyclic _ need.2 (Relation.TransGen.tail' back need)⟩
  | @tail between q path need ih =>
    refine .tail (ih (back.head need)) ⟨need.1, cyclic q need.2 ?_⟩
    exact Relation.TransGen.tail' (back.trans path.to_reflTransGen) need

/-- Among positions of which each needs another of them, one needs itself, directly or through
others. -/
theorem exists_cycle (r : Position → Position → Prop) (positions : List Position)
    (some : p ∈ positions) (needs : ∀ q ∈ positions, ∃ u ∈ positions, r u q) :
    ∃ q ∈ positions, Relation.TransGen r q q := by
  by_contra none
  let before (a b : {x // x ∈ positions}) : Prop := Relation.TransGen r a b
  have finite : Finite {x // x ∈ positions} := List.finite_toSet positions
  have transitive : IsTrans {x // x ∈ positions} before := ⟨fun _ _ _ => .trans⟩
  have irreflexive : Std.Irrefl before := ⟨fun a around => none ⟨a, a.2, around⟩⟩
  have founded : WellFounded before := Finite.wellFounded_of_trans_of_irrefl before
  obtain ⟨least, _, first⟩ := founded.has_min Set.univ ⟨⟨p, some⟩, trivial⟩
  obtain ⟨u, listed, need⟩ := needs least least.2
  exact first ⟨u, listed⟩ trivial (.single need)

end Schedule

end Spreadsheet
