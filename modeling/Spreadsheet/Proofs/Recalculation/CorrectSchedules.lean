import Spreadsheet.Proofs.Recalculation.Components
import Spreadsheet.Proofs.Recalculation.LeastOrders

/-!
# Correct schedules

A schedule of formulas given once each orders them or puts them on cycles, each of them once. Its
cycles are the cyclic components under firm needs. Without any cycle it is the least order that
meets all needs. A counter of unmet needs is only lowered while it is positive.
-/
namespace Spreadsheet

namespace Schedule

variable {vertices : List Position} {priority : Position → Nat} {p q : Position}

/-! ### Counters -/

section Counters

variable {needs : Needs} {s : Progress}

/-- The state in which a formula has begun to run: it has left the ready ones, and nothing it is
needed for has been told. -/
def begun (priority : Position → Nat) (s : Progress) (p : Position) : Progress :=
  { s with ready := s.ready.erase ⟨priority p, p⟩, done := p :: s.done }

/-- When a formula runs, each counter that it lowers is positive at the time. -/
structure Counted (needs : Needs) (priority : Position → Nat) (s : Progress) (p : Position) :
    Prop where
  waiting : ∀ before q after, Needs.readers needs.all p = before ++ q :: after → ∀ n,
    (before.foldl (Progress.satisfy priority) (begun priority s p)).waiting[q]? = some n → 0 < n
  waitingFirmly : ∀ before q after, Needs.readers needs.firm p = before ++ q :: after → ∀ n,
    (before.foldl (fun counts reader => counts.modify reader (· - 1))
      ((Needs.readers needs.all p).foldl (Progress.satisfy priority)
        (begun priority s p)).waitingFirmly)[q]? = some n → 0 < n

/-- Whatever number of formulas have run, the next one lowers positive counters only. -/
def CountsSoundly (needs : Needs) (priority : Position → Nat)
    (force : Progress → Option Position) (vertices : List Position) : Prop :=
  ∀ steps p,
    nextTurn? force ((Progress.start needs priority vertices).run needs priority force steps) =
      some p →
    Counted needs priority ((Progress.start needs priority vertices).run needs priority force steps) p

/-- Those that need a formula that has not run wait for it. -/
theorem unmet_pos {edges : PositionMap PositionSet} (known : p ∈ vertices) (fresh : p ∉ s.done)
    (need : q ∈ Needs.readers edges p) : 0 < unmet edges vertices s.done q := by
  rw [Nat.pos_iff_ne_zero, ne_eq, unmet_eq_zero_iff]
  exact fun met => fresh (met p known need)

/-- In a faithful state a formula that has not run lowers positive counters only. -/
theorem Faithful.counted (faithful : Faithful needs priority vertices s) (known : p ∈ vertices)
    (fresh : p ∉ s.done) : Counted needs priority s p where
  waiting before q after split n count := by
    have once := nodup_readers needs.all p
    rw [split] at once
    obtain ⟨early, _, apart⟩ := List.nodup_append.mp once
    have untold : q ∉ before := fun told => apart q told q List.mem_cons_self rfl
    rw [(satisfied_foldl priority early _).waiting, if_neg untold] at count
    have told : (if q ∈ vertices then some (unmet needs.all vertices s.done q) else none) =
        some n := (faithful.waiting q).symm.trans count
    split at told
    · rw [← Option.some.inj told]
      exact unmet_pos known fresh (by rw [split]; simp)
    · contradiction
  waitingFirmly before q after split n count := by
    have once := nodup_readers needs.firm p
    rw [split] at once
    obtain ⟨early, _, apart⟩ := List.nodup_append.mp once
    have untold : q ∉ before := fun told => apart q told q List.mem_cons_self rfl
    rw [getElem?_foldl_modify _ early, if_neg untold,
      (satisfied_foldl priority (nodup_readers needs.all p) _).waitingFirmly] at count
    have told : (if q ∈ vertices then some (unmet needs.firm vertices s.done q) else none) =
        some n := (faithful.waitingFirmly q).symm.trans count
    split at told
    · rw [← Option.some.inj told]
      exact unmet_pos known fresh (by rw [split]; simp)
    · contradiction

/-- A run that is forced only to formulas that have not run counts soundly. -/
theorem countsSoundly_of_forced {force : Progress → Option Position} (needs : Needs)
    (priority : Position → Nat) (distinct : vertices.Nodup)
    (forced : ∀ s p, Faithful needs priority vertices s → force s = some p →
      p ∈ vertices ∧ p ∉ s.done) : CountsSoundly needs priority force vertices := by
  have next : ∀ s p, Faithful needs priority vertices s → nextTurn? force s = some p →
      p ∈ vertices ∧ p ∉ s.done := by
    intro s p faithful found
    unfold nextTurn? at found
    cases least : s.ready.min?.map Turn.position with
    | some q =>
      rw [least] at found
      obtain rfl := Option.some.inj found
      obtain ⟨known, fresh, _⟩ := faithful.of_min? least
      exact ⟨known, fresh⟩
    | none =>
      rw [least] at found
      exact forced s p faithful found
  intro steps p found
  have faithful : Faithful needs priority vertices
      ((Progress.start needs priority vertices).run needs priority force steps) :=
    run_keeps (fun s p faithful found =>
      faithful.perform distinct (next s p faithful found).1 (next s p faithful found).2) steps _
        (faithful_start needs priority distinct)
  obtain ⟨known, fresh⟩ := next _ p faithful found
  exact faithful.counted known fresh

/-- The strict order counts soundly. -/
theorem countsSoundly_strict (needs : Needs) (priority : Position → Nat)
    (distinct : vertices.Nodup) : CountsSoundly needs priority (fun _ => none) vertices :=
  countsSoundly_of_forced needs priority distinct fun _ _ _ found => by contradiction

/-- The relaxed order counts soundly. -/
theorem countsSoundly_relaxed (needs : Needs) (priority : Position → Nat)
    (distinct : vertices.Nodup) :
    CountsSoundly needs priority (Progress.leastBound priority vertices) vertices :=
  countsSoundly_of_forced needs priority distinct fun _ _ faithful found =>
    ⟨(faithful.of_leastBound found).1, (faithful.of_leastBound found).2.1⟩

end Counters

/-! ### Correctness -/

/-- A schedule of formulas is correct for their needs. -/
structure Correct (needs : Needs) (priority : Position → Nat) (vertices : List Position)
    (plan : Schedule) : Prop where
  /-- Each formula is ordered once or listed once on a cycle. -/
  perm : (plan.order ++ plan.cyclic).Perm vertices
  /-- The cycles are the components of several formulas, or of one that needs itself. -/
  mem_cycles_iff : ∀ group, group ∈ plan.cycles ↔
    Component needs.firm vertices group ∧ Cyclic needs.firm group
  /-- Each formula comes after those of the order that it needs firmly. -/
  precedes : ∀ before p after, plan.order = before ++ p :: after →
    ∀ u ∈ plan.order, p ∈ Needs.readers needs.firm u → u ∈ before
  /-- Where no formula needs itself, the order is the least that meets all needs. -/
  least : (∀ p ∈ vertices, ¬ Relation.TransGen (Needed needs.all vertices) p p) →
    plan.cycles = [] ∧ Topological needs.all vertices plan.order ∧
      ∀ order, Topological needs.all vertices order →
        plan.order = order ∨ List.Lex (Earlier priority) plan.order order
  /-- No counter of the strict order is lowered below zero. -/
  countsStrictly : CountsSoundly needs priority (fun _ => none) vertices
  /-- No counter of a relaxed order is lowered below zero. -/
  countsRelaxedly : ∀ remaining : List Position, remaining.Nodup →
    CountsSoundly needs priority (Progress.leastBound priority remaining) remaining

/-- A schedule without repetitions lists each formula once, in order or on a cycle. -/
theorem Orders.perm {firm : PositionMap PositionSet} {plan : Schedule}
    (orders : Orders firm vertices plan) (distinct : vertices.Nodup) (once : plan.cyclic.Nodup) :
    (plan.order ++ plan.cyclic).Perm vertices := by
  have apart : (plan.order ++ plan.cyclic).Nodup :=
    List.nodup_append.mpr ⟨orders.nodup, once, fun p early q late same =>
      orders.apart p early (same ▸ late)⟩
  refine (List.perm_ext_iff_of_nodup apart distinct).mpr fun p => ?_
  rw [List.mem_append]
  constructor
  · rintro (ordered | cyclic)
    · exact orders.inside p ordered
    · exact ((orders.cyclic_iff p).mp cyclic).1
  · exact orders.covers p

/-- A strict order that leaves nothing out is the whole schedule. -/
theorem ofVertices_eq_of_acyclic (d : Dependencies) (spills : Spills) (priority : Position → Nat)
    (distinct : vertices.Nodup)
    (acyclic : ∀ p ∈ vertices, ¬ Relation.TransGen (Needed (needs d spills vertices).all vertices) p p) :
    ofVertices d spills priority vertices =
      ⟨strictOrder (needs d spills vertices) priority vertices, []⟩ := by
  have none : (vertices.filter fun p =>
      !(strictOrder (needs d spills vertices) priority vertices).contains p) = [] := by
    refine List.filter_eq_nil_iff.mpr fun p known => ?_
    simpa using mem_strictOrder (needs d spills vertices) priority distinct acyclic known
  have cycles : cyclesAmong (needs d spills vertices).firm [] = [] := by
    refine List.eq_nil_iff_forall_not_mem.mpr fun group listed => ?_
    obtain ⟨p, known, _⟩ := (mem_cyclesAmong_iff.mp listed).1.whole
    contradiction
  simp only [ofVertices]
  rw [none]
  simp [cycles, relaxedOrder, Progress.run, Progress.start]

section Rises

variable {edges : PositionMap PositionSet} {order : List Position}

/-- No formula needs itself if those that need one come after it in a list. -/
theorem not_transGen_of_rises (same : ∀ p, p ∈ vertices ↔ p ∈ order)
    (rises : ∀ u ∈ order, ∀ v ∈ Needs.readers edges u, order.idxOf u < order.idxOf v)
    (known : p ∈ vertices) : ¬ Relation.TransGen (Needed edges vertices) p p := by
  have climbs : ∀ v, Relation.TransGen (Needed edges vertices) p v →
      v ∈ vertices ∧ order.idxOf p < order.idxOf v := fun v path => by
    induction path with
    | single need => exact ⟨need.2, rises p ((same p).mp known) _ need.1⟩
    | tail _ need ih => exact ⟨need.2, ih.2.trans (rises _ ((same _).mp ih.1) _ need.1)⟩
  exact fun around => lt_irrefl _ (climbs p around).2

/-- A list of all formulas meets all needs if those that need one come after it. -/
theorem topological_of_rises (distinct : vertices.Nodup) (once : order.Nodup)
    (same : ∀ p, p ∈ vertices ↔ p ∈ order)
    (rises : ∀ u ∈ order, ∀ v ∈ Needs.readers edges u, order.idxOf u < order.idxOf v) :
    Topological edges vertices order where
  perm := (List.perm_ext_iff_of_nodup once distinct).mpr fun p => (same p).symm
  precedes before p after split u known need := by
    have earlier := rises u ((same u).mp known) p need
    have fresh : p ∉ before := fun twice => by
      rw [split] at once
      exact (List.nodup_append.mp once).2.2 p twice p List.mem_cons_self rfl
    rw [split, List.idxOf_append_of_notMem fresh, List.idxOf_cons_self, Nat.add_zero] at earlier
    by_contra late
    rw [List.idxOf_append_of_notMem late] at earlier
    exact absurd earlier (Nat.not_lt.mpr (Nat.le_add_right _ _))

/-- Formulas are scheduled by their priorities if that lets none come before one that it needs. -/
theorem ofVertices_eq_of_ascending (d : Dependencies) (spills : Spills) (distinct : vertices.Nodup)
    (same : ∀ p, p ∈ vertices ↔ p ∈ order)
    (rises : ∀ u ∈ order, ∀ v ∈ Needs.readers (needs d spills vertices).all u,
      order.idxOf u < order.idxOf v)
    (ascending : order.Pairwise (Earlier priority)) :
    ofVertices d spills priority vertices = ⟨order, []⟩ := by
  have once : order.Nodup := ascending.imp fun earlier both => by
    subst both
    exact earlier.not_symm earlier
  have acyclic := fun p => not_transGen_of_rises (p := p) same rises
  have topological := topological_of_rises distinct once same rises
  have strict := topological_strictOrder (needs d spills vertices) priority distinct acyclic
  have least := strictOrder_least (needs d spills vertices) priority distinct topological
  rw [ofVertices_eq_of_acyclic d spills priority distinct acyclic]
  refine congrArg (Schedule.mk · []) (least.resolve_right ?_)
  exact not_lex_of_perm (strict.perm.trans topological.perm.symm) ascending

end Rises

section Chains

variable {firm : PositionMap PositionSet} {order : List Position} {plan : Schedule}

/-- Of two formulas that have turns the one that the other needs comes first. -/
theorem Orders.idxOf_lt (orders : Orders firm vertices plan) (writer : u ∈ plan.order)
    (reader : v ∈ plan.order) (need : v ∈ Needs.readers firm u) :
    plan.order.idxOf u < plan.order.idxOf v := by
  obtain ⟨before, after, split⟩ := List.append_of_mem reader
  have earlier := orders.precedes before v after split u writer need
  have later : v ∉ before := fun twice => by
    have distinct := orders.nodup
    rw [split] at distinct
    exact (List.nodup_append.mp distinct).2.2 v twice v List.mem_cons_self rfl
  rw [split, List.idxOf_append_of_mem earlier, List.idxOf_append_of_notMem later]
  exact lt_of_lt_of_le (List.idxOf_lt_length_of_mem earlier) (Nat.le_add_right _ _)

/-- Formulas are scheduled one after the other if each needs the one before it and none needs one
after it. -/
theorem Orders.eq_of_chain (orders : Orders firm vertices plan) (distinct : order.Nodup)
    (same : ∀ p, p ∈ vertices ↔ p ∈ order)
    (rises : ∀ u ∈ order, ∀ v ∈ Needs.readers firm u, order.idxOf u < order.idxOf v)
    (chain : order.IsChain fun u v => v ∈ Needs.readers firm u) :
    plan.order = order ∧ plan.cyclic = [] := by
  have acyclic : plan.cyclic = [] := List.eq_nil_iff_forall_not_mem.mpr fun p cyclic => by
    obtain ⟨known, around⟩ := (orders.cyclic_iff p).mp cyclic
    exact not_transGen_of_rises same rises known around
  have listed : ∀ p, p ∈ plan.order ↔ p ∈ order := fun p => by
    rw [← same]
    refine ⟨orders.inside p, fun known => (orders.covers p known).resolve_right ?_⟩
    rw [acyclic]
    exact List.not_mem_nil
  -- Both lists ascend in the numbers that the schedule gives its formulas.
  have scheduled : plan.order.Pairwise fun u v => plan.order.idxOf u < plan.order.idxOf v := by
    refine List.pairwise_iff_getElem.mpr fun i j first second earlier => ?_
    rwa [orders.nodup.idxOf_getElem, orders.nodup.idxOf_getElem]
  have chained : order.Pairwise fun u v => plan.order.idxOf u < plan.order.idxOf v := by
    have : Trans (fun u v => plan.order.idxOf u < plan.order.idxOf v)
        (fun u v => plan.order.idxOf u < plan.order.idxOf v)
        (fun u v => plan.order.idxOf u < plan.order.idxOf v) := ⟨lt_trans⟩
    exact (chain.imp_of_mem_imp fun u v first second need =>
      orders.idxOf_lt ((listed u).mpr first) ((listed v).mpr second) need).pairwise
  refine ⟨List.Perm.eq_of_pairwise (fun u v _ _ before after => absurd (before.trans after) (lt_irrefl _))
    scheduled chained ((List.perm_ext_iff_of_nodup orders.nodup distinct).mpr listed), acyclic⟩

end Chains

/-- The schedule of formulas given once each is correct for the needs among them. -/
theorem correct_ofVertices (d : Dependencies) (spills : Spills) (priority : Position → Nat)
    (distinct : vertices.Nodup) :
    Correct (needs d spills vertices) priority vertices (ofVertices d spills priority vertices) := by
  have orders := orders_ofVertices d spills priority distinct
  refine ⟨orders.perm distinct (nodup_flatten_cyclesAmong _ _), fun group => ?_, orders.precedes,
    fun acyclic => ?_, countsSoundly_strict _ priority distinct,
    fun remaining once => countsSoundly_relaxed _ priority once⟩
  · -- The cycles are sought among what the strict order leaves, where all of them lie.
    refine mem_cyclesAmong_iff.trans (cyclicComponent_iff (fun p left => ?_) fun p known around => ?_)
    · exact ((mem_rest_iff priority).mp left).1
    · refine (mem_rest_iff priority).mpr ⟨known, fun early => ?_⟩
      exact orders.apart p (List.mem_append_left _ early) ((orders.cyclic_iff p).mpr ⟨known, around⟩)
  · rw [ofVertices_eq_of_acyclic d spills priority distinct acyclic]
    exact ⟨rfl, topological_strictOrder _ priority distinct acyclic, fun order topological =>
      strictOrder_least _ priority distinct topological⟩

/-- Two formulas that read each other's cells and one that reads the first are scheduled
correctly. -/
theorem correct_ofVertices_of_mutual_pair :
    [Position.mk 0 0 0, ⟨0, 0, 1⟩, ⟨0, 0, 2⟩].Nodup ∧
      Correct
        (needs (((Dependencies.empty.record ⟨0, 0, 0⟩ [.single ⟨0, 0, 1⟩]).record ⟨0, 0, 1⟩
          [.single ⟨0, 0, 0⟩]).record ⟨0, 0, 2⟩ [.single ⟨0, 0, 0⟩]) .empty
            [⟨0, 0, 0⟩, ⟨0, 0, 1⟩, ⟨0, 0, 2⟩])
        (fun _ => 0) [⟨0, 0, 0⟩, ⟨0, 0, 1⟩, ⟨0, 0, 2⟩]
        (ofVertices (((Dependencies.empty.record ⟨0, 0, 0⟩ [.single ⟨0, 0, 1⟩]).record ⟨0, 0, 1⟩
          [.single ⟨0, 0, 0⟩]).record ⟨0, 0, 2⟩ [.single ⟨0, 0, 0⟩]) .empty (fun _ => 0)
            [⟨0, 0, 0⟩, ⟨0, 0, 1⟩, ⟨0, 0, 2⟩]) :=
  ⟨by decide, correct_ofVertices _ _ _ (by decide)⟩

end Schedule

end Spreadsheet
