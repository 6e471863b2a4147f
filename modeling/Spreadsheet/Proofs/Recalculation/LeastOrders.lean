import Spreadsheet.Proofs.Recalculation.Schedules

/-!
# The least order

Of all orders in which each formula comes after those it needs, the strict order is the least when
orders are compared formula by formula, by the turns of the first two that differ. At every step
the formula that any such order names next is ready, and the strict order runs the first of those.
-/
namespace Spreadsheet

namespace Schedule

variable {needs : Needs} {edges : PositionMap PositionSet} {vertices rest : List Position}
  {priority : Position → Nat} {s : Progress} {p q : Position}

/-- One formula has its turn before another: by priority, then by position. -/
def Earlier (priority : Position → Nat) (p q : Position) : Prop :=
  compare (Turn.mk (priority p) p) (Turn.mk (priority q) q) = .lt

instance (p q : Position) : Decidable (Earlier priority p q) :=
  inferInstanceAs (Decidable (_ = _))

/-- Of two formulas at most one has its turn before the other. -/
theorem Earlier.not_symm (earlier : Earlier priority p q) : ¬ Earlier priority q p := by
  intro later
  unfold Earlier at earlier later
  rw [Std.OrientedCmp.gt_of_lt later] at earlier
  contradiction

/-- No rearrangement of formulas in the order of their turns comes before that order. -/
theorem not_lex_of_perm {list sorted : List Position} (same : list.Perm sorted)
    (ascending : sorted.Pairwise (Earlier priority)) : ¬ List.Lex (Earlier priority) list sorted := by
  intro before
  induction before with
  | nil => exact absurd same.length_eq (by simp)
  | cons _ ih => exact ih (List.Perm.cons_inv same) (List.pairwise_cons.mp ascending).2
  | @rel p rest q rest' earlier =>
    rcases List.mem_cons.mp (same.mem_iff.mp List.mem_cons_self) with rfl | later
    · exact earlier.not_symm earlier
    · exact earlier.not_symm ((List.pairwise_cons.mp ascending).1 p later)

/-- An order of all formulas of a list in which each comes after those it needs. -/
structure Topological (edges : PositionMap PositionSet) (vertices order : List Position) : Prop where
  perm : order.Perm vertices
  precedes : ∀ before p after, order = before ++ p :: after →
    ∀ u ∈ vertices, p ∈ Needs.readers edges u → u ∈ before

/-- The formula that comes next in such an order has not run and needs nothing more. -/
theorem Topological.next_free (topological : Topological edges vertices (s.done.reverse ++ q :: rest))
    (distinct : vertices.Nodup) : q ∈ vertices ∧ q ∉ s.done ∧ unmet edges vertices s.done q = 0 := by
  refine ⟨topological.perm.mem_iff.mp (by simp), fun ran => ?_, unmet_eq_zero_iff.mpr
    fun u known need => List.mem_reverse.mp (topological.precedes _ q rest rfl u known need)⟩
  have once := topological.perm.nodup_iff.mpr distinct
  exact List.disjoint_of_nodup_append once (List.mem_reverse.mpr ran) List.mem_cons_self

/-- The strict order runs the first formula that is ready. -/
theorem Faithful.nextTurn?_eq_some (faithful : Faithful needs priority vertices s)
    (known : q ∈ vertices) (fresh : q ∉ s.done) (free : unmet needs.all vertices s.done q = 0) :
    ∃ p, nextTurn? (fun _ => none) s = some p ∧ p ∈ vertices ∧ p ∉ s.done ∧
      (p = q ∨ Earlier priority p q) := by
  have ready : Turn.mk (priority q) q ∈ s.ready :=
    (faithful.ready _).mpr ⟨q, known, fresh, free, rfl⟩
  cases least : s.ready.min? with
  | none =>
    rw [Std.ExtTreeSet.min?_eq_none_iff.mp least] at ready
    simp at ready
  | some t =>
    obtain ⟨member, first⟩ := Std.ExtTreeSet.min?_eq_some_iff_mem_and_forall.mp least
    obtain ⟨p, listed, waits, _, rfl⟩ := (faithful.ready t).mp member
    refine ⟨p, by simp [nextTurn?, least], listed, waits, ?_⟩
    rcases Ordering.isLE_iff_eq_lt_or_eq_eq.mp (first _ ready) with ahead | same
    · exact .inr ahead
    · exact .inl (congrArg Turn.position (Std.LawfulEqOrd.eq_of_compare same))

/-- A run goes on from what has run. -/
theorem exists_done_run (needs : Needs) (priority : Position → Nat)
    (force : Progress → Option Position) (steps : Nat) (s : Progress) :
    ∃ later, (s.run needs priority force steps).done.reverse = s.done.reverse ++ later := by
  have step : ∀ (s' : Progress) (p : Position),
      (∃ later, s'.done.reverse = s.done.reverse ++ later) → nextTurn? force s' = some p →
        ∃ later, (s'.perform needs priority p).done.reverse = s.done.reverse ++ later := by
    rintro s' p ⟨later, same⟩ _
    exact ⟨later ++ [p], by rw [done_perform, List.reverse_cons, same, List.append_assoc]⟩
  exact run_keeps step steps s ⟨[], by simp⟩

/-- What a run adds to what has run comes no later than what any order adds that meets all needs. -/
theorem Faithful.least_run (faithful : Faithful needs priority vertices s)
    (distinct : vertices.Nodup) (steps : Nat) (whole : s.done.length + steps = vertices.length)
    (topological : Topological needs.all vertices (s.done.reverse ++ rest)) :
    ∃ later, (s.run needs priority (fun _ => none) steps).done.reverse = s.done.reverse ++ later ∧
      (later = rest ∨ List.Lex (Earlier priority) later rest) := by
  have length := topological.perm.length_eq
  rw [List.length_append, List.length_reverse] at length
  induction steps generalizing s rest with
  | zero =>
    refine ⟨[], by simp [Progress.run], .inl ?_⟩
    exact (List.length_eq_zero_iff.mp (by omega)).symm
  | succ steps ih =>
    cases rest with
    | nil =>
      rw [List.length_nil] at length
      omega
    | cons q rest =>
      obtain ⟨known, fresh, free⟩ := topological.next_free distinct
      obtain ⟨p, next, listed, waits, first⟩ := faithful.nextTurn?_eq_some known fresh free
      have one : s.run needs priority (fun _ => none) (steps + 1) =
          (s.perform needs priority p).run needs priority (fun _ => none) steps := by
        unfold nextTurn? at next
        rw [Progress.run, next]
      have ran : (s.perform needs priority p).done.reverse = s.done.reverse ++ [p] := by
        rw [done_perform, List.reverse_cons]
      rw [one]
      rcases first with rfl | ahead
      · -- Both orders go on with the same formula.
        obtain ⟨later, same, compared⟩ := ih (faithful.perform distinct listed waits)
          (by rw [done_perform, List.length_cons]; omega)
          (by rw [ran]; simpa using topological)
          (by rw [done_perform, List.length_cons]; rw [List.length_cons] at length; omega)
        refine ⟨p :: later, by rw [same, ran]; simp, ?_⟩
        rcases compared with rfl | before
        · exact .inl rfl
        · exact .inr (.cons before)
      · obtain ⟨later, same⟩ := exists_done_run needs priority (fun _ => none) steps
          (s.perform needs priority p)
        exact ⟨p :: later, by rw [same, ran]; simp, .inr (.rel ahead)⟩

/-- No order that meets all needs comes before the strict one. -/
theorem strictOrder_least (needs : Needs) (priority : Position → Nat) (distinct : vertices.Nodup)
    {order : List Position} (topological : Topological needs.all vertices order) :
    strictOrder needs priority vertices = order ∨
      List.Lex (Earlier priority) (strictOrder needs priority vertices) order := by
  have whole : Topological needs.all vertices
      ((Progress.start needs priority vertices).done.reverse ++ order) := by
    simpa [Progress.start]
  obtain ⟨later, same, compared⟩ := (faithful_start needs priority distinct).least_run distinct
    vertices.length (by simp [Progress.start]) whole
  have found : strictOrder needs priority vertices = later := by
    unfold strictOrder
    rw [same]
    rfl
  rw [found]
  exact compared

/-- The strict order leaves no formula out if none needs itself. -/
theorem mem_strictOrder (needs : Needs) (priority : Position → Nat) (distinct : vertices.Nodup)
    (acyclic : ∀ q ∈ vertices, ¬ Relation.TransGen (Needed needs.all vertices) q q)
    (known : p ∈ vertices) : p ∈ strictOrder needs priority vertices := by
  have orderly := orderly_strict needs priority distinct
  have ends := run_ends needs priority (fun _ => none) vertices.length
    (Progress.start needs priority vertices)
  unfold strictOrder
  rw [List.mem_reverse]
  generalize (Progress.start needs priority vertices).run needs priority (fun _ => none)
    vertices.length = last at orderly ends ⊢
  by_contra fresh
  rcases ends with stopped | full
  · have stuck : ∀ q ∈ vertices, q ∉ last.done → unmet needs.all vertices last.done q ≠ 0 := by
      intro q member waits free
      obtain ⟨p, next, _⟩ := orderly.toFaithful.nextTurn?_eq_some member waits free
      rw [stopped] at next
      contradiction
    obtain ⟨q, member, around⟩ := exists_cycle_of_stuck stuck known fresh
    exact acyclic q member around
  · exact fresh (orderly.toFaithful.mem_done_of_full (by rw [full]; exact Nat.le_add_left _ _) known)

/-- The strict order meets all needs if it leaves no formula out. -/
theorem topological_strictOrder (needs : Needs) (priority : Position → Nat)
    (distinct : vertices.Nodup)
    (acyclic : ∀ q ∈ vertices, ¬ Relation.TransGen (Needed needs.all vertices) q q) :
    Topological needs.all vertices (strictOrder needs priority vertices) where
  perm := by
    have orderly := orderly_strict needs priority distinct
    refine (List.perm_ext_iff_of_nodup (List.nodup_reverse.mpr orderly.distinct) distinct).mpr
      fun p => ⟨fun listed => orderly.inside p (List.mem_reverse.mp listed), ?_⟩
    exact mem_strictOrder needs priority distinct acyclic
  precedes _ _ _ split _ known need :=
    (orderly_strict needs priority distinct).precedes split known need

end Schedule

end Spreadsheet
