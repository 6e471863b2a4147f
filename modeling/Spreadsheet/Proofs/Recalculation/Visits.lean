import Spreadsheet.Proofs.Recalculation.Searches

/-!
# Visits

The visit of a formula follows what comes next, one after the other. The low number of the formula is
then at most the number of anything that stood on the stack before and is met from what the visit has
put there, and it is the number of something that the formula gets back to. So a visit that ends
leaves a group exactly where it should, and with it the search has found all groups.
-/
namespace Spreadsheet

namespace Schedule

variable {next : Position → List Position} {ground path done : List Position} {p q : Position}
  {w w' : Walk} {s s' s'' : Search} {depth : Nat}

/-! ### What a visit keeps -/

/-- What has been met keeps its numbers. -/
def Kept (s s' : Search) : Prop :=
  ∀ q ∈ s.indices, q ∈ s'.indices ∧ s'.index q = s.index q ∧ s'.low q = s.low q

/-- Two steps that keep numbers. -/
theorem Kept.trans (first : Kept s s') (second : Kept s' s'') : Kept s s'' := fun q known => by
  obtain ⟨still, index, low⟩ := first q known
  obtain ⟨again, index', low'⟩ := second q still
  exact ⟨again, index'.trans index, low'.trans low⟩

/-- Lowering the number of a formula that had not been met keeps those of others. -/
theorem Kept.lower (kept : Kept s s') (fresh : p ∉ s.indices) (n : Nat) : Kept s (s'.lower p n) :=
  fun q known => by
    obtain ⟨still, index, low⟩ := kept q known
    refine ⟨still, index, ?_⟩
    rw [Search.low_lower, if_neg fun same : q = p => fresh (same ▸ known), low]

/-- A number is that of a formula on the stack that another one gets back to, or greater than all
that are on the stack. -/
def Returns (next : Position → List Position) (s : Search) (p : Position) (n : Nat) : Prop :=
  s.count ≤ n ∨ ∃ q ∈ s.stack, s.index q = n ∧ Reaches next p q

/-- The lesser of two numbers that a formula gets back to. -/
theorem Returns.min {m n : Nat} (first : Returns next s p m) (second : Returns next s p n) :
    Returns next s p (min m n) := by
  rcases min_choice m n with same | same <;> rw [same] <;> assumption

/-- What the visit of a formula does while the visits of a path are open. -/
structure Visited (next : Position → List Position) (ground path : List Position) (s : Search)
    (p : Position) (w' : Walk) (s' : Search) : Prop where
  sound : Sound next ground path w' s'
  kept : Kept s s'
  met : p ∈ s'.indices
  returns : Returns next s p (s'.low p)
  bounded : ∃ new, s'.stack = new ++ s.stack ∧
    ∀ x ∈ new, ∀ y ∈ next x, y ∈ s.stack → s'.low p ≤ s.index y

/-- The state of a visit whose formula has been entered and some of what comes next followed. -/
structure Following (next : Position → List Position) (ground path : List Position) (s : Search)
    (p : Position) (done : List Position) (w' : Walk) (s' : Search) : Prop where
  sound : Sound next ground (p :: path) w' s'
  kept : Kept s s'
  index : s'.index p = s.count
  low_le : s'.low p ≤ s.count
  returns : Returns next s p (s'.low p)
  bounded : ∃ new, s'.stack = new ++ p :: s.stack ∧
    ∀ x ∈ new, ∀ y ∈ next x, y ∈ s.stack → s'.low p ≤ s.index y
  followed : ∀ q ∈ done, q ∈ s'.indices ∧ (q ∈ s.stack → s'.low p ≤ s.index q)

namespace Following

/-- The formula has been entered. -/
theorem start (sound : Sound next ground path w s) (fresh : p ∉ s.indices) (known : p ∈ ground)
    (reached : ∀ q ∈ path, Reaches next q p) :
    Following next ground path s p [] ⟨w.seen.insert p, w.left⟩ (s.enter p) := by
  have low : (s.enter p).low p = s.count := by rw [Search.low_enter, if_pos rfl]
  refine ⟨sound.enter fresh known reached, fun q known => ?_, by rw [Search.index_enter, if_pos rfl],
    low.le, .inl low.ge, ⟨[], rfl, fun _ none => by contradiction⟩, fun _ none => by contradiction⟩
  have other : q ≠ p := fun same => fresh (same ▸ known)
  exact ⟨Search.mem_indices_enter.mpr (.inr known), by rw [Search.index_enter, if_neg other],
    by rw [Search.low_enter, if_neg other]⟩

variable (following : Following next ground path s p done w' s')

include following

/-- The formula of the visit is on the stack. -/
theorem stacked : p ∈ s'.stack := following.sound.inside p List.mem_cons_self

/-- What stood on the stack before still does. -/
theorem stack_kept (listed : q ∈ s.stack) : q ∈ s'.stack := by
  obtain ⟨new, split, _⟩ := following.bounded
  rw [split]
  exact List.mem_append_right _ (List.mem_cons_of_mem p listed)

/-- What is on the stack stood there before, or it has a greater number than all that did. -/
theorem stack_cases (listed : q ∈ s'.stack) : q ∈ s.stack ∨ s.count ≤ s'.index q := by
  obtain ⟨new, split, _⟩ := following.bounded
  rw [split] at listed
  rcases List.mem_append.mp listed with high | low
  · exact .inr (following.index ▸ ((following.sound.index_split split).1 q high).le)
  · rcases List.mem_cons.mp low with rfl | low
    · exact .inr following.index.ge
    · exact .inl low

/-- What the formula gets back to from a formula that comes next, it gets back to itself. -/
theorem returns_of_next (sound : Sound next ground path w s) {n : Nat} (step : q ∈ next p)
    (returns : Returns next s' q n) : Returns next s p n := by
  rcases returns with beyond | ⟨z, listed, index, way⟩
  · have own := following.sound.numbered p (following.sound.met_of_stack following.stacked)
    rw [following.index] at own
    exact .inl (own.le.trans beyond)
  · rcases following.stack_cases listed with old | new
    · refine .inr ⟨z, old, ?_, .head step way⟩
      rw [← index, (following.kept z (sound.met_of_stack old)).2.1]
    · exact .inl (index ▸ new)

/-- The low number is lowered to one that the formula gets back to. -/
theorem lower (fresh : p ∉ s.indices) {n : Nat} (returns : Returns next s p n) :
    Following next ground path s p done w' (s'.lower p n) := by
  have low : (s'.lower p n).low p = min (s'.low p) n := by rw [Search.low_lower, if_pos rfl]
  have less : (s'.lower p n).low p ≤ s'.low p := low ▸ min_le_left _ _
  obtain ⟨new, split, bounded⟩ := following.bounded
  refine ⟨following.sound.lower n, following.kept.lower fresh n, following.index,
    less.trans following.low_le, low ▸ following.returns.min returns,
    ⟨new, split, fun x member y step old => less.trans (bounded x member y step old)⟩,
    fun q listed => ⟨(following.followed q listed).1,
      fun old => less.trans ((following.followed q listed).2 old)⟩⟩

/-- One more formula has been followed. -/
theorem concat (known : q ∈ s'.indices) (bounded : q ∈ s.stack → s'.low p ≤ s.index q) :
    Following next ground path s p (done ++ [q]) w' s' where
  sound := following.sound
  kept := following.kept
  index := following.index
  low_le := following.low_le
  returns := following.returns
  bounded := following.bounded
  followed u listed := by
    rcases List.mem_append.mp listed with old | new
    · exact following.followed u old
    · rw [List.mem_singleton.mp new]
      exact ⟨known, bounded⟩

/-- A formula that is on the stack is followed. -/
theorem follow_stacked (sound : Sound next ground path w s) (fresh : p ∉ s.indices) (step : q ∈ next p)
    (listed : q ∈ s'.stack) :
    Following next ground path s p (done ++ [q]) w' (s'.lower p (s'.index q)) := by
  have returns := following.returns_of_next sound step (.inr ⟨q, listed, rfl, .refl⟩)
  refine (following.lower fresh returns).concat (following.sound.met_of_stack listed) fun old => ?_
  rw [Search.low_lower, if_pos rfl, ← (following.kept q (sound.met_of_stack old)).2.1]
  exact min_le_right _ _

/-- A formula that has been met and is no longer on the stack is followed. -/
theorem follow_settled (known : q ∈ s'.indices) (gone : q ∉ s'.stack) :
    Following next ground path s p (done ++ [q]) w' s' :=
  following.concat known fun old => absurd (following.stack_kept old) gone

/-- A formula that has not been met is visited, and followed by that. -/
theorem follow_visited (sound : Sound next ground path w s) (fresh : p ∉ s.indices) (step : q ∈ next p)
    (unmet : q ∉ s'.indices) {w'' : Walk} (visited : Visited next ground (p :: path) s' q w'' s'') :
    Following next ground path s p (done ++ [q]) w'' (s''.lower p (s''.low q)) := by
  obtain ⟨known, index, low⟩ := visited.kept p (following.sound.met_of_stack following.stacked)
  have least : (s''.lower p (s''.low q)).low p = min (s'.low p) (s''.low q) := by
    rw [Search.low_lower, if_pos rfl, low]
  have less : (s''.lower p (s''.low q)).low p ≤ s'.low p := least ▸ min_le_left _ _
  obtain ⟨new, split, bounded⟩ := following.bounded
  obtain ⟨newer, resplit, rebounded⟩ := visited.bounded
  refine ⟨visited.sound.lower _, (following.kept.trans visited.kept).lower fresh _,
    index.trans following.index, less.trans following.low_le,
    least ▸ following.returns.min (following.returns_of_next sound step visited.returns),
    ⟨newer ++ new, by rw [List.append_assoc, ← split]; exact resplit, fun x member y next old => ?_⟩,
    fun u listed => ?_⟩
  · rcases List.mem_append.mp member with later | earlier
    · rw [← (following.kept y (sound.met_of_stack old)).2.1]
      exact (least ▸ min_le_right _ _).trans
        (rebounded x later y next (following.stack_kept old))
    · exact less.trans (bounded x earlier y next old)
  · rcases List.mem_append.mp listed with old | here
    · obtain ⟨met, bounded⟩ := following.followed u old
      exact ⟨(visited.kept u met).1, fun old => less.trans (bounded old)⟩
    · rw [List.mem_singleton.mp here]
      exact ⟨visited.met, fun old =>
        absurd (following.kept q (sound.met_of_stack old)).1 unmet⟩

end Following

/-- When all that comes next has been followed, the visit ends. -/
theorem Following.leave (following : Following next ground path s p (next p) w' s')
    (sound : Sound next ground path w s) :
    Visited next ground path s p ⟨w'.seen, p :: w'.left⟩ (s'.leave p) := by
  have followed : ∀ q ∈ next p, q ∈ s'.indices := fun q step => (following.followed q step).1
  have known := following.sound.met_of_stack following.stacked
  obtain ⟨new, split, bounded⟩ := following.bounded
  by_cases root : s'.low p = s'.index p
  · have high : p ∉ new := fun twice =>
      lt_irrefl _ ((following.sound.index_split split).1 p twice)
    -- Anything below would have lowered the low number.
    have apart : ∀ q ∈ new ++ [p], ∀ u ∈ next q, u ∉ s.stack := by
      intro q listed u step old
      have less := sound.numbered u (sound.met_of_stack old)
      rw [← following.index, ← root] at less
      rcases List.mem_append.mp listed with above | own
      · exact absurd less (Nat.not_lt.mpr (bounded q above u step old))
      · rw [List.mem_singleton.mp own] at step
        exact absurd less (Nat.not_lt.mpr ((following.followed u step).2 old))
    refine ⟨following.sound.leave_root split followed apart root, ?_, ?_, ?_, ?_⟩
    all_goals rw [Search.leave_of_root root split high]
    · exact following.kept
    · exact known
    · exact .inl (root.trans following.index).ge
    · exact ⟨[], rfl, fun _ none => by contradiction⟩
  · have joined : ∃ q ∈ s.stack, s.index q = s'.low p ∧ Reaches next p q := by
      rcases following.returns with beyond | back
      · exact absurd ((following.low_le.antisymm beyond).trans following.index.symm) root
      · exact back
    obtain ⟨z, old, index, way⟩ := joined
    have less := sound.numbered z (sound.met_of_stack old)
    have lower : s'.index z < s'.index p := by
      rwa [following.index, (following.kept z (sound.met_of_stack old)).2.1]
    rw [Search.leave_of_joined root]
    refine ⟨following.sound.leave_joined followed ⟨z, following.stack_kept old, lower, way⟩,
      following.kept, known, following.returns, ⟨new ++ [p], split.trans (List.append_cons ..), ?_⟩⟩
    intro q listed u step old
    rcases List.mem_append.mp listed with above | own
    · exact bounded q above u step old
    · rw [List.mem_singleton.mp own] at step
      exact (following.followed u step).2 old

/-! ### Visits inside each other -/

/-- Visits of some depth do what visits do, as long as no more than that many positions of a list have
not been seen. -/
def VisitsWithin (next : Position → List Position) (ground : List Position) (depth : Nat) : Prop :=
  ∀ path w s p, Sound next ground path w s → p ∉ s.indices → p ∈ ground →
    (∀ q ∈ path, Reaches next q p) → (unseen ground w.seen).length ≤ depth →
    Visited next ground path s p (w.visit next depth p) (s.visit next depth p)

/-- What comes next is followed one after the other. -/
theorem Following.foldl (visits : VisitsWithin next ground depth)
    (inside : ∀ p, ∀ q ∈ next p, q ∈ ground) (sound : Sound next ground path w s) (fresh : p ∉ s.indices)
    (rest : List Position) (following : Following next ground path s p done w' s')
    (step : ∀ q ∈ rest, q ∈ next p) (deep : (unseen ground w'.seen).length ≤ depth) :
    Following next ground path s p (done ++ rest) (rest.foldl (Walk.visit next depth) w')
      (rest.foldl (Search.follow (Search.visit next depth) p) s') := by
  induction rest generalizing done w' s' with
  | nil =>
    rw [List.append_nil]
    exact following
  | cons q rest ih =>
    rw [List.append_cons, List.foldl_cons, List.foldl_cons]
    have here : q ∈ next p := step q List.mem_cons_self
    have later : ∀ u ∈ rest, u ∈ next p := fun u listed => step u (List.mem_cons_of_mem q listed)
    rw [Search.follow]
    by_cases known : q ∈ s'.indices
    · rw [if_pos (Std.ExtTreeMap.contains_iff_mem.mpr known),
        Walk.visit_of_mem depth ((following.sound.seen q).mpr known)]
      by_cases stacked : q ∈ s'.stack
      · rw [if_pos (Std.ExtTreeSet.contains_iff_mem.mpr ((following.sound.onStack q).mpr stacked))]
        exact ih (following.follow_stacked sound fresh here stacked) later deep
      · rw [if_neg fun held => stacked
          ((following.sound.onStack q).mp (Std.ExtTreeSet.contains_iff_mem.mp held))]
        exact ih (following.follow_settled known stacked) later deep
    · rw [if_neg fun held => known (Std.ExtTreeMap.contains_iff_mem.mp held)]
      have visited := visits (p :: path) w' s' q following.sound known (inside p q here)
        (fun u underway => by
          have stacked := following.sound.inside u underway
          rcases List.mem_cons.mp underway with rfl | lower
          · exact .single here
          · exact (following.sound.forth u underway p following.stacked
              (following.sound.index_lt_of_path lower).le).tail here) deep
      refine ih (following.follow_visited sound fresh here known visited) later ?_
      refine (length_unseen_le ground fun u seen => ?_).trans deep
      exact (visited.sound.seen u).mpr (visited.kept u ((following.sound.seen u).mp seen)).1

/-- A search that may make as many visits inside each other as there are positions that have not been
seen does what visits do. -/
theorem visitsWithin (distinct : ground.Nodup) (inside : ∀ p, ∀ q ∈ next p, q ∈ ground)
    (depth : Nat) : VisitsWithin next ground depth := by
  induction depth with
  | zero =>
    intro path w s p sound fresh known _ deep
    have unmet : p ∈ unseen ground w.seen := List.mem_filter.mpr
      ⟨known, PositionSet.not_contains_iff.mpr fun seen => fresh ((sound.seen p).mp seen)⟩
    exact absurd (List.length_pos_of_mem unmet) (Nat.not_lt.mpr deep)
  | succ depth ih =>
    intro path w s p sound fresh known reached deep
    have unseen : p ∉ w.seen := fun seen => fresh ((sound.seen p).mp seen)
    have fewer := length_unseen_insert_lt distinct known unseen
    rw [Walk.visit_of_not_mem depth unseen, Search.visit]
    exact ((Following.start sound fresh known reached).foldl ih inside sound fresh (next p)
      (fun _ step => step) (by dsimp only; omega)).leave sound

/-! ### Whole searches -/

/-- A search through a list of positions is sound when it ends, and has met them all. -/
theorem sound_visitAll (distinct : ground.Nodup) (inside : ∀ p, ∀ q ∈ next p, q ∈ ground)
    (vertices : List Position) (listed : ∀ p ∈ vertices, p ∈ ground)
    (sound : Sound next ground [] w s) (deep : (unseen ground w.seen).length ≤ depth) :
    Sound next ground [] (vertices.foldl (Walk.visit next depth) w) (s.visitAll next depth vertices) ∧
      (∀ p ∈ vertices, p ∈ (s.visitAll next depth vertices).indices) ∧
        Kept s (s.visitAll next depth vertices) := by
  induction vertices generalizing w s with
  | nil => exact ⟨sound, fun _ none => by contradiction, fun _ known => ⟨known, rfl, rfl⟩⟩
  | cons p rest ih =>
    have others : ∀ q ∈ rest, q ∈ ground := fun q later => listed q (List.mem_cons_of_mem p later)
    unfold Search.visitAll at ih ⊢
    rw [List.foldl_cons, List.foldl_cons]
    by_cases known : p ∈ s.indices
    · rw [if_pos (Std.ExtTreeMap.contains_iff_mem.mpr known),
        Walk.visit_of_mem depth ((sound.seen p).mpr known)]
      obtain ⟨ended, met, kept⟩ := ih others sound deep
      exact ⟨ended, List.forall_mem_cons.mpr ⟨(kept p known).1, met⟩, kept⟩
    · rw [if_neg fun held => known (Std.ExtTreeMap.contains_iff_mem.mp held)]
      have visited := visitsWithin distinct inside depth [] w s p sound known
        (listed p List.mem_cons_self) (fun _ none => by contradiction) deep
      obtain ⟨ended, met, kept⟩ := ih others visited.sound <|
        (length_unseen_le ground fun u seen =>
          (visited.sound.seen u).mpr (visited.kept u ((sound.seen u).mp seen)).1).trans deep
      exact ⟨ended, List.forall_mem_cons.mpr ⟨(kept p visited.met).1, met⟩,
        visited.kept.trans kept⟩

end Schedule

end Spreadsheet
