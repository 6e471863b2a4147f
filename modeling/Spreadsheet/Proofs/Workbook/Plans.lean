import Spreadsheet.Proofs.Recalculation.Schedules
import Spreadsheet.Proofs.Workbook.Computation

/-!
# What a round schedules

A round schedules the formulas that are due and all that depend on them. Whatever reads the output
of a scheduled formula is scheduled too, so a cycle is scheduled as a whole or not at all.
-/
namespace Spreadsheet

namespace Workbook

variable {w w' : Workbook} {p q : Position}

/-- What is due: the marked formulas, and those that read a changed position. -/
theorem mem_due :
    p ∈ w.due ↔ (p ∈ w.dirty ∨ ∃ q ∈ w.changed, p ∈ w.dependencies.readersOf q) ∧
      w.isFormula p = true := by
  simp only [due, PositionSet.mem_ofList, List.mem_filter, List.mem_append, List.mem_flatMap,
    Std.ExtTreeSet.mem_toList]

/-- Nothing is due where nothing is marked. -/
theorem not_mem_due_of_unmarked (dirty : w.dirty = ∅) (changed : w.changed = ∅) : p ∉ w.due := by
  intro due
  obtain ⟨marked | ⟨u, marked, _⟩, _⟩ := mem_due.mp due
  · rw [dirty] at marked
    exact Std.ExtTreeSet.not_mem_empty marked
  · rw [changed] at marked
    exact Std.ExtTreeSet.not_mem_empty marked

/-- What a round schedules: what is due and all that depends on it. -/
def vertices (w : Workbook) : List Position :=
  (Schedule.closure w.dependencies w.due.toList).filter w.isFormula

/-- What is due is scheduled. -/
theorem mem_vertices_of_mem_due (due : p ∈ w.due) : p ∈ w.vertices :=
  List.mem_filter.mpr ⟨Schedule.mem_closure_of_mem _ (Std.ExtTreeSet.mem_toList.mpr due),
    (mem_due.mp due).2⟩

/-- Only formulas are scheduled. -/
theorem isFormula_of_mem_vertices (scheduled : p ∈ w.vertices) : w.isFormula p = true :=
  (List.mem_filter.mp scheduled).2

/-- The schedule of a round orders what it schedules. -/
theorem orders_plan (w : Workbook) :
    Schedule.Orders (Schedule.needs w.dependencies w.spills w.vertices).firm w.vertices w.plan :=
  Schedule.orders_ofVertices _ _ _ ((Schedule.nodup_closure _ _).filter _)

/-- A formula that reads a scheduled one is scheduled. -/
theorem mem_vertices_of_reads (indexed : w.dependencies.Indexed) (scheduled : q ∈ w.vertices)
    (reads : w.Reads p q) (formula : w.isFormula p = true) : p ∈ w.vertices := by
  refine List.mem_filter.mpr ⟨?_, formula⟩
  have closed := (List.mem_filter.mp scheduled).1
  by_cases self : p = q
  · rwa [self]
  · rw [Schedule.mem_closure_iff indexed] at closed ⊢
    obtain ⟨seed, given, path⟩ := closed
    exact ⟨seed, given, path.tail ((Schedule.mem_directReaders indexed).mpr ⟨self, reads⟩)⟩

/-- What reads a scheduled formula is scheduled. -/
theorem UpToDate.mem_vertices_of_reads (current : w.UpToDate) (scheduled : q ∈ w.vertices)
    (reads : w.Reads p q) : p ∈ w.vertices :=
  Workbook.mem_vertices_of_reads current.indexed scheduled reads (current.isFormula_of_reads reads)

/-! ### Cycles -/

/-- The formula at one position reads that at another. -/
def Feeds (w : Workbook) (writer reader : Position) : Prop :=
  w.isFormula writer = true ∧ w.Reads reader writer

/-- The formula at a position lies on a cycle of formulas that read each other. -/
def OnCycle (w : Workbook) (p : Position) : Prop := Relation.TransGen w.Feeds p p

/-- The same sources have the same cycles. -/
theorem onCycle_congr (same : SameSources w w') : w'.OnCycle p ↔ w.OnCycle p := by
  have feeds : w'.Feeds = w.Feeds := by
    funext writer reader
    simp only [Feeds, Reads, same.isFormula, same.dependencies]
  unfold OnCycle
  rw [feeds]

/-- What follows on a scheduled formula by way of readers is scheduled. -/
theorem UpToDate.mem_vertices_of_transGen (current : w.UpToDate) (scheduled : p ∈ w.vertices)
    (path : Relation.TransGen w.Feeds p q) : q ∈ w.vertices := by
  induction path with
  | single step => exact current.mem_vertices_of_reads scheduled step.2
  | tail _ step ih => exact current.mem_vertices_of_reads ih step.2

/-- Only formulas lie on cycles. -/
theorem OnCycle.isFormula (cyclic : w.OnCycle p) : w.isFormula p = true := by
  obtain ⟨_, step, _⟩ := Relation.TransGen.head'_iff.mp cyclic
  exact step.1

/-- Formulas that read only formulas of lower rank lie on no cycles. -/
theorem not_onCycle_of_ranked (rank : Position → Nat)
    (rises : ∀ p ∈ w.formulaPositions, ∀ u ∈ w.formulaPositions,
      (w.dependencies.zonesOf p).any (·.contains u) = true → rank u < rank p) :
    ¬ w.OnCycle p := by
  intro cycle
  have step : ∀ {u q}, w.Feeds u q → w.isFormula q = true → rank u < rank q :=
    fun feeds formula => rises _ (mem_formulaPositions.mpr formula) _
      (mem_formulaPositions.mpr feeds.1) (List.any_eq_true.mpr feeds.2)
  -- Every formula in the middle of the path is one, as the next one reads it.
  have along : ∀ q, Relation.TransGen w.Feeds p q → w.isFormula q = true → rank p < rank q := by
    intro q path
    induction path with
    | single feeds => exact step feeds
    | tail _ feeds ih => exact fun formula => (ih feeds.1).trans (step feeds formula)
  exact Nat.lt_irrefl _ (along p cycle cycle.isFormula)

/-- A round finds the scheduled formulas on cycles, as far as what one formula reads of another is the
output of that one. -/
theorem mem_cyclic_plan_iff (indexed : w.dependencies.Indexed)
    (firm : ∀ u q, w.isFormula u = true → w.Reads q u →
      Schedule.ReadsFirmly w.dependencies w.spills u q) :
    p ∈ w.plan.cyclic ↔ p ∈ w.vertices ∧ w.OnCycle p := by
  rw [w.orders_plan.cyclic_iff]
  refine and_congr_right fun scheduled => ⟨?_, fun cycle => ?_⟩
  · refine Relation.TransGen.mono (fun u q step => ?_) p p
    obtain ⟨known, _, zone, listed, inside, _⟩ := (Schedule.mem_readers_firm_needs _ _ _).mp step.1
    exact ⟨isFormula_of_mem_vertices known, zone, listed, inside⟩
  · -- A path of formulas that starts in the schedule stays in it.
    have along : ∀ q, Relation.TransGen w.Feeds p q → w.isFormula q = true →
        q ∈ w.vertices ∧ Relation.TransGen (Schedule.Needed
          (Schedule.needs w.dependencies w.spills w.vertices).firm w.vertices) p q := by
      intro q path
      have needed : ∀ {u q}, u ∈ w.vertices → w.Feeds u q → w.isFormula q = true →
          q ∈ w.vertices ∧ Schedule.Needed
            (Schedule.needs w.dependencies w.spills w.vertices).firm w.vertices u q := by
        intro u q known step formula
        have listed := mem_vertices_of_reads indexed known step.2 formula
        exact ⟨listed, (Schedule.mem_readers_firm_needs _ _ _).mpr
          ⟨known, listed, firm u q step.1 step.2⟩, listed⟩
      induction path with
      | single step =>
        intro formula
        have next := needed scheduled step formula
        exact ⟨next.1, .single next.2⟩
      | tail _ step ih =>
        intro formula
        have before := ih step.1
        have next := needed before.1 step formula
        exact ⟨next.1, before.2.tail next.2⟩
    exact (along p cycle cycle.isFormula).2

/-- Where formulas read nothing none is on a cycle. -/
theorem cyclic_plan_of_unread (unread : ∀ p q, ¬ w.Reads p q) : w.plan.cyclic = [] := by
  refine List.eq_nil_iff_forall_not_mem.mpr fun p cyclic => ?_
  obtain ⟨_, need, _⟩ :=
    Relation.TransGen.head'_iff.mp ((w.orders_plan.cyclic_iff p).mp cyclic).2
  obtain ⟨_, _, zone, listed, inside, _⟩ := (Schedule.mem_readers_firm_needs _ _ _).mp need.1
  exact unread _ _ ⟨zone, listed, inside⟩

/-- Formulas read nothing where nothing is recorded. -/
theorem not_reads_of_isEmpty (bare : w.dependencies.precedents.isEmpty = true) (p q : Position) :
    ¬ w.Reads p q := by
  rintro ⟨zone, listed, _⟩
  rw [Dependencies.zonesOf, Std.ExtTreeMap.isEmpty_iff.mp bare, Std.ExtTreeMap.getElem?_empty]
    at listed
  contradiction

/-- A formula that is scheduled alone is evaluated alone if formulas read nothing. -/
theorem order_plan_of_alone (unread : ∀ p q, ¬ w.Reads p q) (alone : ∀ q ∈ w.vertices, q = p)
    (due : p ∈ w.due) : w.plan.order = [p] := by
  have listed : p ∈ w.plan.order := by
    refine (w.orders_plan.covers p (mem_vertices_of_mem_due due)).resolve_right ?_
    rw [cyclic_plan_of_unread unread]
    exact List.not_mem_nil
  have only : ∀ q ∈ w.plan.order, q = p := fun q there => alone q (w.orders_plan.inside q there)
  refine List.perm_singleton.mp ((List.perm_ext_iff_of_nodup w.orders_plan.nodup
    (List.nodup_singleton p)).mpr fun q => ?_)
  rw [List.mem_singleton]
  exact ⟨only q, fun same => same ▸ listed⟩

end Workbook

end Spreadsheet
