import Spreadsheet.Proofs.Workbook.Sources

/-!
# Marks of a round

Within a round a formula that has to be evaluated is marked in one of two ways: it is due if its turn
is still to come, and dirty for the next round otherwise. What a step of a round marks is one set of
formulas, the readers it touches and the anchors it wakes.
-/
namespace Spreadsheet

namespace Round

/-- A round is another one in which some formulas have been made due. -/
structure Marks (r : Round) (marked : Position → Prop) (r' : Round) : Prop where
  workbook : r'.workbook = { r.workbook with dirty := r'.workbook.dirty }
  pending : r'.pending = r.pending
  mem_dirty : ∀ p, p ∈ r'.workbook.dirty ↔ p ∈ r.workbook.dirty ∨ p ∉ r.pending ∧ marked p
  mem_due : ∀ p, p ∈ r'.due ↔ p ∈ r.due ∨ p ∈ r.pending ∧ marked p

namespace Marks

variable {r r' r'' : Round} {marked other : Position → Prop}

/-- Nothing is marked where nothing is done. -/
theorem refl (r : Round) : r.Marks (fun _ => False) r where
  workbook := rfl
  pending := rfl
  mem_dirty p := by simp
  mem_due p := by simp

/-- What is marked in two steps is what is marked in either. -/
theorem trans (first : r.Marks marked r') (second : r'.Marks other r'') :
    r.Marks (fun p => marked p ∨ other p) r'' where
  workbook := by rw [second.workbook, first.workbook]
  pending := second.pending.trans first.pending
  mem_dirty p := by
    rw [second.mem_dirty, first.mem_dirty, first.pending, or_assoc, and_or_left]
  mem_due p := by
    rw [second.mem_due, first.mem_due, first.pending, or_assoc, and_or_left]

/-- What is marked may be described in another way. -/
theorem congr (marks : r.Marks marked r') (same : ∀ p, marked p ↔ other p) :
    r.Marks other r' where
  workbook := marks.workbook
  pending := marks.pending
  mem_dirty p := by rw [marks.mem_dirty, same]
  mem_due p := by rw [marks.mem_due, same]

/-- Marks leave the arrays. -/
theorem spills (marks : r.Marks marked r') : r'.workbook.spills = r.workbook.spills := by
  rw [marks.workbook]

/-- Marks leave what formulas read. -/
theorem dependencies (marks : r.Marks marked r') :
    r'.workbook.dependencies = r.workbook.dependencies := by
  rw [marks.workbook]

/-- Marks leave the formulas. -/
theorem isFormula (marks : r.Marks marked r') (p : Position) :
    r'.workbook.isFormula p = r.workbook.isFormula p := by
  rw [marks.workbook]
  rfl

end Marks

variable {r r' : Round} {marked : Position → Prop}

/-- Making a formula due marks it. -/
theorem marks_reschedule (r : Round) (p : Position) : r.Marks (· = p) (r.reschedule p) := by
  unfold reschedule
  by_cases waits : p ∈ r.pending
  · rw [if_pos (Std.ExtTreeSet.contains_iff_mem.mpr waits)]
    refine ⟨rfl, rfl, fun q => ?_, fun q => ?_⟩
    · constructor
      · exact .inl
      · rintro (old | ⟨outside, rfl⟩)
        · exact old
        · exact absurd waits outside
    · rw [PositionSet.mem_insert]
      constructor
      · rintro (rfl | old)
        · exact .inr ⟨waits, rfl⟩
        · exact .inl old
      · rintro (old | ⟨_, rfl⟩)
        · exact .inr old
        · exact .inl rfl
  · rw [if_neg fun found => waits (Std.ExtTreeSet.contains_iff_mem.mp found)]
    refine ⟨rfl, rfl, fun q => ?_, fun q => ?_⟩
    · simp only [Workbook.markDirty, PositionSet.mem_insertMany, List.mem_singleton]
      constructor
      · rintro (old | rfl)
        · exact .inl old
        · exact .inr ⟨waits, rfl⟩
      · rintro (old | ⟨_, same⟩)
        · exact .inl old
        · exact .inr same
    · constructor
      · exact .inl
      · rintro (old | ⟨inside, rfl⟩)
        · exact old
        · exact absurd inside waits

/-- Steps that each mark something mark all of it, as long as what they mark does not depend on
marks. -/
theorem marks_foldl {α : Type} {step : Round → α → Round} (of : α → Position → Prop)
    {things : List α} {r : Round}
    (steps : ∀ t ∈ things, ∀ (marked : Position → Prop) (r' : Round), r.Marks marked r' →
      r'.Marks (of t) (step r' t)) :
    r.Marks (fun p => ∃ t ∈ things, of t p) (things.foldl step r) := by
  have run : ∀ (rest : List α) (marked : Position → Prop) (r' : Round), (∀ t ∈ rest, t ∈ things) →
      r.Marks marked r' → r.Marks (fun p => marked p ∨ ∃ t ∈ rest, of t p) (rest.foldl step r') := by
    intro rest
    induction rest with
    | nil => exact fun marked r' _ marks => marks.congr fun p => by simp
    | cons t rest ih =>
      intro marked r' listed marks
      have one := marks.trans (steps t (listed t List.mem_cons_self) marked r' marks)
      refine (ih _ _ (fun u later => listed u (List.mem_cons_of_mem _ later)) one).congr fun p => ?_
      simp only [List.mem_cons, exists_eq_or_imp, or_assoc]
  exact (run things _ r (fun _ listed => listed) (.refl r)).congr fun p => by simp

/-- Making formulas due marks them. -/
theorem marks_rescheduleAll (r : Round) (positions : List Position) :
    r.Marks (· ∈ positions) (positions.foldl reschedule r) :=
  (marks_foldl (fun q p => p = q) fun q _ _ r' _ => r'.marks_reschedule q).congr fun p => by
    simp

/-- The formulas that read one of the positions, other than the one the change comes from. -/
def Touched (w : Workbook) (origin : Position) (positions : List Position) (p : Position) : Prop :=
  p ≠ origin ∧ w.isFormula p = true ∧ ∃ q ∈ positions, p ∈ w.dependencies.readersOf q

/-- The anchors blocked around one of the positions, other than the one the change comes from. -/
def Woken (spills : Spills) (origin : Position) (positions : List Position) (p : Position) : Prop :=
  p ≠ origin ∧ ∃ q ∈ positions, p ∈ spills.blockedAround q

/-- Touching positions marks the formulas that read them. -/
theorem marks_touch (r : Round) (origin : Position) (positions : List Position) :
    r.Marks (Touched r.workbook origin positions) (r.touch origin positions) := by
  refine (marks_foldl (fun q p => p ∈ (r.workbook.dependencies.readersOf q).filter fun reader =>
    reader != origin && r.workbook.isFormula reader) ?_).congr fun p => ?_
  · intro q _ marked r' marks
    refine (marks_rescheduleAll r' _).congr fun p => ?_
    simp only [List.mem_filter, marks.dependencies, marks.isFormula]
  · simp only [Touched, List.mem_filter, Bool.and_eq_true, bne_iff_ne]
    constructor
    · rintro ⟨q, listed, reads, other, formula⟩
      exact ⟨other, formula, q, listed, reads⟩
    · rintro ⟨other, formula, q, listed, reads⟩
      exact ⟨q, listed, reads, other, formula⟩

/-- Waking around positions marks the anchors blocked around them. -/
theorem marks_wake (r : Round) (origin : Position) (positions : List Position) :
    r.Marks (Woken r.workbook.spills origin positions) (r.wake origin positions) := by
  refine (marks_foldl (fun q p => p ∈ (r.workbook.spills.blockedAround q).filter (· != origin))
    ?_).congr fun p => ?_
  · intro q _ marked r' marks
    refine (marks_rescheduleAll r' _).congr fun p => ?_
    rw [marks.spills]
  · simp only [Woken, List.mem_filter, bne_iff_ne]
    constructor
    · rintro ⟨q, listed, blocked, other⟩
      exact ⟨other, q, listed, blocked⟩
    · rintro ⟨other, q, listed, blocked⟩
      exact ⟨q, listed, blocked, other⟩

/-- Touching and waking in turn. -/
theorem marks_touch_wake (r : Round) (origin : Position) (touched woken : List Position) :
    r.Marks (fun p => Touched r.workbook origin touched p ∨
        Woken r.workbook.spills origin woken p)
      ((r.touch origin touched).wake origin woken) := by
  have first := r.marks_touch origin touched
  refine (first.trans (marks_wake _ origin woken)).congr fun p => ?_
  rw [first.spills]

end Round

end Spreadsheet
