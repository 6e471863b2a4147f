import Mathlib.Data.Fintype.Card
import Mathlib.Data.List.Perm.Subperm
import Mathlib.Logic.Relation
import Spreadsheet.Proofs.Address.Zones
import Spreadsheet.Proofs.Recalculation.Dependencies
import Spreadsheet.Recalculation.Schedule

/-!
# Reaching positions

The search along a relation given by lists finds what can be reached in any number of steps,
provided it may take enough of them: one for each position that is queued or not yet seen. The
closure of formulas under their readers is found by it, and so are cycles.
-/
namespace Spreadsheet

namespace Schedule

variable {next : Position → List Position} {seen : PositionSet} {queue : List Position}
  {p q : Position}

/-- One step of a search. -/
abbrev Steps (next : Position → List Position) (p q : Position) : Prop := q ∈ next p

/-- What has been seen stays seen. -/
theorem mem_reach_of_mem (fuel : Nat) (known : q ∈ seen) : q ∈ reach next fuel seen queue := by
  induction fuel generalizing seen queue with
  | zero => exact known
  | succ fuel ih =>
    cases queue with
    | nil => exact known
    | cons p queue => exact ih (PositionSet.mem_insertMany.mpr (.inl known))

/-- What is found can be reached from what was seen before. -/
theorem exists_of_mem_reach (fuel : Nat) (queued : ∀ p ∈ queue, p ∈ seen)
    (found : q ∈ reach next fuel seen queue) :
    ∃ p ∈ seen, Relation.ReflTransGen (Steps next) p q := by
  induction fuel generalizing seen queue with
  | zero => exact ⟨q, found, .refl⟩
  | succ fuel ih =>
    cases queue with
    | nil => exact ⟨q, found, .refl⟩
    | cons p queue =>
      have here : p ∈ seen := queued p List.mem_cons_self
      obtain ⟨start, known, path⟩ := ih (fun x listed => by
        rw [PositionSet.mem_insertMany]
        rcases List.mem_append.mp listed with old | new
        · exact .inl (queued x (List.mem_cons_of_mem p old))
        · exact .inr new) found
      rcases PositionSet.mem_insertMany.mp known with old | new
      · exact ⟨start, old, path⟩
      · exact ⟨p, here, path.head (List.mem_filter.mp new).1⟩

/-- The positions of a list that have not been seen. -/
def unseen (ground : List Position) (seen : PositionSet) : List Position :=
  ground.filter fun q => !seen.contains q

/-- Seeing new positions of a list leaves as many fewer unseen. -/
theorem length_unseen_insertMany {ground : List Position} (seen : PositionSet)
    {found : List Position} (distinct : ground.Nodup)
    (once : found.Nodup) (inside : ∀ q ∈ found, q ∈ ground) (fresh : ∀ q ∈ found, q ∉ seen) :
    found.length + (unseen ground (seen.insertMany found)).length ≤
      (unseen ground seen).length := by
  have both : (found ++ unseen ground (seen.insertMany found)).Nodup := by
    refine List.nodup_append.mpr ⟨once, distinct.filter _, fun p left q right same => ?_⟩
    subst same
    have beyond := (List.mem_filter.mp right).2
    simp [left] at beyond
  have part : found ++ unseen ground (seen.insertMany found) ⊆ unseen ground seen := by
    intro q listed
    rcases List.mem_append.mp listed with new | old
    · exact List.mem_filter.mpr ⟨inside q new, PositionSet.not_contains_iff.mpr (fresh q new)⟩
    · obtain ⟨known, beyond⟩ := List.mem_filter.mp old
      refine List.mem_filter.mpr ⟨known, ?_⟩
      rw [PositionSet.not_contains_iff, PositionSet.mem_insertMany, not_or] at beyond
      exact PositionSet.not_contains_iff.mpr beyond.1
  have bound := (List.subperm_of_subset both part).length_le
  rwa [List.length_append] at bound

/-- Seeing one more position of a list leaves fewer unseen. -/
theorem length_unseen_insert_lt {ground : List Position} (distinct : ground.Nodup)
    (known : p ∈ ground) (fresh : p ∉ seen) : (unseen ground (seen.insert p)).length < (unseen ground seen).length := by
  have fewer := length_unseen_insertMany seen distinct (List.nodup_singleton p)
    (by simpa using known) (by simpa using fresh)
  have same : seen.insertMany [p] = seen.insert p := PositionSet.ext fun q => by
    rw [PositionSet.mem_insertMany, PositionSet.mem_insert, List.mem_singleton, or_comm]
  rw [same, List.length_singleton] at fewer
  omega

/-- Seeing more positions leaves no more unseen. -/
theorem length_unseen_le (ground : List Position) {seen seen' : PositionSet}
    (kept : ∀ p ∈ seen, p ∈ seen') :
    (unseen ground seen').length ≤ (unseen ground seen).length := by
  refine (List.Sublist.length_le (List.monotone_filter_right ground fun q => ?_))
  intro beyond
  rw [PositionSet.not_contains_iff] at beyond ⊢
  exact fun old => beyond (kept q old)

/-- With enough fuel nothing that can be reached in one step from what is found is missing. -/
theorem mem_reach_step {ground : List Position} (distinct : ground.Nodup)
    (once : ∀ p, (next p).Nodup) (inside : ∀ p, ∀ q ∈ next p, q ∈ ground) (fuel : Nat)
    (queued : ∀ p ∈ queue, p ∈ seen) (enough : queue.length + (unseen ground seen).length ≤ fuel)
    (handled : ∀ p ∈ seen, p ∈ queue ∨ ∀ q ∈ next p, q ∈ seen)
    (found : p ∈ reach next fuel seen queue) (step : q ∈ next p) :
    q ∈ reach next fuel seen queue := by
  induction fuel generalizing seen queue with
  | zero =>
    have none : queue = [] := List.length_eq_zero_iff.mp (by omega)
    rcases handled p found with waiting | all
    · rw [none] at waiting
      contradiction
    · exact all q step
  | succ fuel ih =>
    cases queue with
    | nil =>
      rcases handled p found with waiting | all
      · contradiction
      · exact all q step
    | cons first queue =>
      refine ih ?_ ?_ ?_ found
      · intro x listed
        rw [PositionSet.mem_insertMany]
        rcases List.mem_append.mp listed with old | new
        · exact .inl (queued x (List.mem_cons_of_mem first old))
        · exact .inr new
      · have fewer := length_unseen_insertMany seen distinct
          ((once first).filter fun q => !seen.contains q)
          (fun q listed => inside first q (List.mem_filter.mp listed).1)
          (fun q listed => PositionSet.not_contains_iff.mp (List.mem_filter.mp listed).2)
        rw [List.length_append]
        rw [List.length_cons] at enough
        omega
      · intro x known
        rcases PositionSet.mem_insertMany.mp known with old | new
        · rcases handled x old with waiting | all
          · rcases List.mem_cons.mp waiting with rfl | later
            · refine .inr fun y step => PositionSet.mem_insertMany.mpr ?_
              by_cases here : y ∈ seen
              · exact .inl here
              · exact .inr (List.mem_filter.mpr ⟨step, PositionSet.not_contains_iff.mpr here⟩)
            · exact .inl (List.mem_append_left _ later)
          · exact .inr fun y step => PositionSet.mem_insertMany.mpr (.inl (all y step))
        · exact .inl (List.mem_append_right _ new)

/-- With enough fuel a search from a list of positions finds exactly what can be reached from one
of them. -/
theorem mem_reach_iff {ground start : List Position} (distinct : ground.Nodup)
    (once : ∀ p, (next p).Nodup) (inside : ∀ p, ∀ q ∈ next p, q ∈ ground) {fuel : Nat}
    (enough : start.length + (unseen ground (.ofList start compare)).length ≤ fuel) :
    q ∈ reach next fuel (.ofList start compare) start ↔
      ∃ p ∈ start, Relation.ReflTransGen (Steps next) p q := by
  constructor
  · intro found
    obtain ⟨p, known, path⟩ := exists_of_mem_reach fuel
      (fun p listed => PositionSet.mem_ofList.mpr listed) found
    exact ⟨p, PositionSet.mem_ofList.mp known, path⟩
  · rintro ⟨p, listed, path⟩
    induction path with
    | refl => exact mem_reach_of_mem fuel (PositionSet.mem_ofList.mpr listed)
    | tail _ step ih =>
      exact mem_reach_step distinct once inside fuel
        (fun p listed => PositionSet.mem_ofList.mpr listed) enough
        (fun p known => .inl (PositionSet.mem_ofList.mp known)) ih step

/-! ### The closure under readers -/

/-- The formulas that read the cell of another one. -/
theorem mem_directReaders {d : Dependencies} (indexed : d.Indexed) {p q : Position} :
    q ∈ directReaders d p ↔ q ≠ p ∧ ∃ zone ∈ d.zonesOf q, zone.contains p = true := by
  rw [directReaders, List.mem_filter, indexed.mem_readersOf, bne_iff_ne, and_comm]

/-- The closure of formulas holds them and all that read them, directly or not. -/
theorem mem_closure_iff {d : Dependencies} (indexed : d.Indexed) (seeds : List Position) :
    q ∈ closure d seeds ↔
      ∃ p ∈ seeds, Relation.ReflTransGen (Steps (directReaders d)) p q := by
  have distinct : d.precedents.keys.Nodup :=
    d.precedents.distinct_keys.imp fun differ same => differ (by
      rw [same]
      exact Std.ReflCmp.compare_self)
  have once : ∀ p, (directReaders d p).Nodup := fun p =>
    (nodup_sortedPositions _).filter _
  have inside : ∀ p, ∀ q ∈ directReaders d p, q ∈ d.precedents.keys := by
    intro p q reads
    obtain ⟨_, zone, listed, _⟩ := (mem_directReaders indexed).mp reads
    rw [Std.ExtTreeMap.mem_keys, Std.ExtTreeMap.mem_iff_isSome_getElem?]
    cases found : d.precedents[q]? with
    | some zones => rfl
    | none => simp [Dependencies.zonesOf, found] at listed
  have enough : (distinctPositions seeds).length +
      (unseen d.precedents.keys (.ofList (distinctPositions seeds) compare)).length ≤
        (distinctPositions seeds).length + d.precedents.size := by
    have fewer := List.length_filter_le
      (fun q => !(Std.ExtTreeSet.ofList (distinctPositions seeds) compare).contains q)
      d.precedents.keys
    rw [Std.ExtTreeMap.length_keys] at fewer
    unfold unseen
    omega
  rw [closure, Std.ExtTreeSet.mem_toList, mem_reach_iff distinct once inside enough]
  simp only [mem_distinctPositions]

/-- The closure holds every formula once. -/
theorem nodup_closure (d : Dependencies) (seeds : List Position) : (closure d seeds).Nodup :=
  PositionSet.nodup_toList _

/-- The closure holds the formulas it starts from. -/
theorem mem_closure_of_mem (d : Dependencies) {seeds : List Position} (given : q ∈ seeds) :
    q ∈ closure d seeds := by
  rw [closure, Std.ExtTreeSet.mem_toList]
  exact mem_reach_of_mem _ (PositionSet.mem_ofList.mpr (mem_distinctPositions.mpr given))

end Schedule

end Spreadsheet
