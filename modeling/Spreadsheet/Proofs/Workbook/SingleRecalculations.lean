import Spreadsheet.Proofs.Workbook.SingleRounds

/-!
# Recalculations without arrays

Without arrays the first round of a recalculation does all the work. What is left to be evaluated
after it are formulas on cycles, and the rounds that follow stamp them once more.
-/
namespace Spreadsheet

namespace Workbook

variable {w w' : Workbook} {p q : Position}

/-- A workbook without arrays in which nothing waits for a recalculation. -/
structure Calm (w : Workbook) : Prop extends Plain w where
  dirty : w.dirty = ∅
  changed : w.changed = ∅

/-- The same sources without arrays are a workbook without arrays. -/
theorem Plain.of_sources (plain : w.Plain) (same : SameSources w w') (spills : w'.spills = .empty) :
    w'.Plain :=
  ⟨plain.current.of_sameSources same, plain.registered.congr same.toSameSheets, spills⟩

/-- A workbook brought up to date: formulas on cycles have their error, what was summoned keeps what
it comes to now, and everything else keeps what it had. -/
structure Renewed (w : Workbook) (announced : Position → Prop) (w' : Workbook) : Prop where
  calm : w'.Calm
  sources : SameSources w w'
  circular : ∀ q, w.OnCycle q → w'.result? q = some .circular
  fresh : ∀ q ∈ w.plan.order, w.Summoned announced q → w'.result? q = some (w'.compute q).outcome
  kept : ∀ q, q ∉ w.plan.cyclic → (q ∈ w.plan.order → ¬ w.Summoned announced q) →
    w'.result? q = w.result? q
  announced_iff : ∀ q, announced q ↔
    (q ∈ w.plan.cyclic ∨ q ∈ w.plan.order ∧ w.Summoned announced q) ∧ ¬ w.SameResult w' q

/-- Nothing is scheduled where nothing is due. -/
theorem not_mem_vertices_of_idle (indexed : w.dependencies.Indexed) (idle : w.due.isEmpty = true) :
    p ∉ w.vertices := fun scheduled => by
  obtain ⟨seed, given, _⟩ := (Schedule.mem_closure_iff indexed _).mp (List.mem_filter.mp scheduled).1
  rw [Std.ExtTreeSet.mem_toList, Std.ExtTreeSet.isEmpty_iff.mp idle] at given
  exact Std.ExtTreeSet.not_mem_empty given

/-- One round gives every formula its turn, if any is due. -/
theorem Plain.turned_recalculateOnce (plain : w.Plain) (singles : w.EvaluatesSingles) :
    ∃ announced r, w.Turned w.plan.order announced r ∧ r.workbook = w.recalculateOnce := by
  unfold recalculateOnce
  split
  · rename_i idle
    have vertices := fun q => not_mem_vertices_of_idle (p := q) plain.current.indexed idle
    have order : ∀ q, q ∉ w.plan.order := fun q ordered =>
      vertices q (w.orders_plan.inside q ordered)
    have cyclic : ∀ q, q ∉ w.plan.cyclic := fun q cyclic =>
      vertices q (plain.mem_cyclic_iff.mp cyclic).1
    refine ⟨fun _ => False, ⟨w.unmarked, ∅, ∅⟩, ?_, rfl⟩
    exact ⟨w.sameSources_unmarked, plain.spills, rfl,
      fun q => by simp [order q], fun q marked => absurd marked Std.ExtTreeSet.not_mem_empty,
      fun q ordered => absurd ordered (order q), fun q found => absurd found (cyclic q),
      fun q ordered => absurd ordered (order q), fun q _ _ => rfl,
      fun q => by simp [order q, cyclic q]⟩
  · obtain ⟨announced, turned⟩ := plain.turned_turns singles
    exact ⟨announced, _, turned, rfl⟩

/-- A workbook in which at most formulas on cycles wait, and they all have their error. -/
structure Resting (w : Workbook) : Prop extends Plain w where
  changed : w.changed = ∅
  dirty : ∀ q ∈ w.dirty, w.OnCycle q
  circular : ∀ q, w.OnCycle q → w.result? q = some .circular

/-- A round over a workbook at rest changes no result. -/
theorem Resting.recalculateOnce (resting : w.Resting) :
    w.recalculateOnce.Resting ∧ ∀ q, w.recalculateOnce.result? q = w.result? q := by
  have plain := resting.toPlain
  unfold Workbook.recalculateOnce
  split
  · refine ⟨⟨plain.of_sources w.sameSources_unmarked plain.spills, rfl,
      fun q marked => absurd marked Std.ExtTreeSet.not_mem_empty, fun q cyclic => ?_⟩, fun q => rfl⟩
    exact resting.circular q ((onCycle_congr w.sameSources_unmarked).mp cyclic)
  · -- Whoever is due is on a cycle, and stamping says nothing new.
    have stamped := plain.stamped_opening
    have quiet : ∀ q ∈ w.plan.order, ¬ w.Summoned
        (fun u => u ∈ w.plan.cyclic ∧ ¬ w.SameResult (w.opening w.plan).workbook u) q := by
      rintro q ordered (due | ⟨u, ⟨cyclic, news⟩, _⟩)
      · obtain ⟨dirty | ⟨u, changed, _⟩, _⟩ := mem_due.mp due
        · exact w.orders_plan.apart q ordered (plain.mem_cyclic_iff.mpr
            ⟨mem_vertices_of_mem_due due, resting.dirty q dirty⟩)
        · rw [resting.changed] at changed
          exact Std.ExtTreeSet.not_mem_empty changed
      · refine news ⟨.circular, .circular, ?_, ?_, Outcome.same_circular⟩
        · exact resting.circular u (plain.mem_cyclic_iff.mp cyclic).2
        · rw [stamped.result, if_pos cyclic]
    have turned := stamped.turned.idle (List.nil_append _).symm quiet
    have result : ∀ q, (w.plan.order.foldl Round.turn (w.opening w.plan)).workbook.result? q =
        w.result? q := fun q => by
      by_cases cyclic : q ∈ w.plan.cyclic
      · rw [turned.circular q cyclic, resting.circular q (plain.mem_cyclic_iff.mp cyclic).2]
      · exact turned.kept q cyclic (quiet q)
    refine ⟨⟨plain.of_sources turned.sources turned.spills, turned.changed, fun q marked => ?_,
      fun q cyclic => ?_⟩, result⟩
    · exact (onCycle_congr turned.sources).mpr
        (plain.mem_cyclic_iff.mp (turned.dirty q marked)).2
    · rw [result]
      exact resting.circular q ((onCycle_congr turned.sources).mp cyclic)

/-- Rounds over a workbook at rest change no result and take all marks. -/
theorem Resting.recalculateWithin (rounds : Nat) (resting : w.Resting) :
    (w.recalculateWithin rounds).Calm ∧
      ∀ q, (w.recalculateWithin rounds).result? q = w.result? q := by
  induction rounds generalizing w with
  | zero =>
    exact ⟨⟨resting.toPlain.of_sources w.sameSources_unmarked resting.spills, rfl, rfl⟩,
      fun q => rfl⟩
  | succ rounds ih =>
    unfold Workbook.recalculateWithin
    split
    · rename_i idle
      rw [Bool.and_eq_true] at idle
      exact ⟨⟨resting.toPlain, Std.ExtTreeSet.isEmpty_iff.mp idle.1,
        Std.ExtTreeSet.isEmpty_iff.mp idle.2⟩, fun q => rfl⟩
    · obtain ⟨next, same⟩ := resting.recalculateOnce
      obtain ⟨calm, results⟩ := ih next
      exact ⟨calm, fun q => (results q).trans (same q)⟩

/-- A recalculation is the first round, as far as sources and results go. -/
theorem Plain.recalculate_eq (plain : w.Plain)
    (rest : w.recalculateOnce.Resting) :
    w.recalculate.Calm ∧ SameSources w.recalculateOnce w.recalculate ∧
      ∀ q, w.recalculate.result? q = w.recalculateOnce.result? q := by
  unfold recalculate Workbook.recalculateWithin
  split
  · rename_i idle
    rw [Bool.and_eq_true] at idle
    have dirty := Std.ExtTreeSet.isEmpty_iff.mp idle.1
    have changed := Std.ExtTreeSet.isEmpty_iff.mp idle.2
    have none : w.due.isEmpty = true := by
      rw [Std.ExtTreeSet.isEmpty_iff]
      exact PositionSet.ext fun q => by
        simp [not_mem_due_of_unmarked dirty changed]
    have once : w.recalculateOnce = w.unmarked := if_pos none
    rw [once]
    exact ⟨⟨plain, dirty, changed⟩, .of_results w.unmarked w.spills w.dirty w.changed w.journal,
      fun q => rfl⟩
  · obtain ⟨calm, results⟩ := rest.recalculateWithin w.settings.rounds
    exact ⟨calm, sameSources_recalculateWithin _ _, results⟩

/-- A recalculation brings a workbook up to date, if the formulas on cycles that are not scheduled
have their error already. -/
theorem Plain.renewed_recalculate (plain : w.Plain) (singles : w.EvaluatesSingles)
    (others : ∀ q, w.OnCycle q → q ∉ w.vertices → w.result? q = some .circular) :
    ∃ announced, w.Renewed announced w.recalculate := by
  obtain ⟨announced, r, turned, once⟩ := plain.turned_recalculateOnce singles
  have circular : ∀ q, w.OnCycle q → r.workbook.result? q = some .circular := by
    intro q cyclic
    by_cases scheduled : q ∈ w.vertices
    · exact turned.circular q (plain.mem_cyclic_iff.mpr ⟨scheduled, cyclic⟩)
    · rw [← others q cyclic scheduled]
      refine turned.kept q (fun listed => ?_) fun ordered => ?_
      · exact scheduled (plain.mem_cyclic_iff.mp listed).1
      · exact absurd (w.orders_plan.inside q ordered) scheduled
  have rest : w.recalculateOnce.Resting := by
    rw [← once]
    refine ⟨plain.of_sources turned.sources turned.spills, turned.changed, fun q marked => ?_,
      fun q cyclic => circular q ((onCycle_congr turned.sources).mp cyclic)⟩
    exact (onCycle_congr turned.sources).mpr (plain.mem_cyclic_iff.mp (turned.dirty q marked)).2
  obtain ⟨calm, later, results⟩ := plain.recalculate_eq rest
  rw [← once] at later results
  have compute : ∀ q, w.recalculate.compute q = r.workbook.compute q := fun q =>
    compute_congr_results (plain.current.of_sameSources turned.sources)
      (plain.registered.congr turned.sources.toSameSheets) later
      (calm.spills.trans turned.spills.symm) fun u _ => results u
  refine ⟨announced, calm, w.sameSources_recalculate, fun q cyclic => ?_,
    fun q ordered summoned => ?_, fun q free unasked => ?_, fun q => ?_⟩
  · rw [results, circular q cyclic]
  · rw [results, compute, turned.fresh q ordered summoned]
  · rw [results, turned.kept q free unasked]
  · rw [turned.announced_iff q, sameResult_congr rfl (results q)]

end Workbook

end Spreadsheet
