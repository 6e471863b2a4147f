import Spreadsheet.Proofs.Recalculation.Cycles

/-!
# Orders that meet needs

While formulas are put in order, the counts of unmet needs are those of the formulas that have not
run, and the ready formulas are those without unmet needs. So a formula runs when nothing it needs
is left to run: in the strict order nothing at all, in the relaxed one nothing that it needs firmly.
The relaxed order leaves no formula out if none needs itself firmly.
-/
namespace Spreadsheet

namespace Schedule

variable {edges : PositionMap PositionSet} {needs : Needs} {vertices done : List Position}
  {priority : Position → Nat} {s : Progress} {p q u : Position}

/-- The number of formulas of a list that have not run and that a formula needs. -/
def unmet (edges : PositionMap PositionSet) (vertices done : List Position) (q : Position) : Nat :=
  vertices.countP fun u => !done.contains u && (Needs.readers edges u).contains q

/-- A formula has no unmet needs when all formulas of the list that it needs have run. -/
theorem unmet_eq_zero_iff :
    unmet edges vertices done q = 0 ↔
      ∀ u ∈ vertices, q ∈ Needs.readers edges u → u ∈ done := by
  simp only [unmet, List.countP_eq_zero, Bool.and_eq_true, Bool.not_eq_true', not_and,
    List.contains_iff_mem, ← Bool.not_eq_true]
  refine forall₂_congr fun u _ => ?_
  by_cases ran : u ∈ done
  · simp [ran]
  · simp [ran]

/-- When a formula has run, those that need it have one unmet need less. -/
theorem unmet_cons (edges : PositionMap PositionSet) (distinct : vertices.Nodup)
    (known : p ∈ vertices) (fresh : p ∉ done) (q : Position) :
    unmet edges vertices done q =
      unmet edges vertices (p :: done) q + if q ∈ Needs.readers edges p then 1 else 0 := by
  have split := List.perm_cons_erase known
  have others : ∀ u ∈ vertices.erase p, u ≠ p := fun u listed same => by
    rw [same] at listed
    exact (distinct.not_mem_erase) listed
  unfold unmet
  rw [split.countP_eq, split.countP_eq, List.countP_cons, List.countP_cons]
  have rest : (vertices.erase p).countP (fun u => !(p :: done).contains u &&
      (Needs.readers edges u).contains q) =
        (vertices.erase p).countP fun u => !done.contains u &&
          (Needs.readers edges u).contains q :=
    List.countP_congr fun u listed => by simp [others u listed]
  rw [rest]
  by_cases reads : q ∈ Needs.readers edges p
  · simp [reads, fresh]
  · simp [reads]

/-! ### Counting -/

/-- Changing the counts of formulas listed once each. -/
theorem getElem?_foldl_modify (f : Nat → Nat) {readers : List Position} (once : readers.Nodup)
    (counts : PositionMap Nat) (q : Position) :
    (readers.foldl (fun counts reader => counts.modify reader f) counts)[q]? =
      if q ∈ readers then counts[q]?.map f else counts[q]? := by
  induction readers generalizing counts with
  | nil => simp
  | cons reader rest ih =>
    obtain ⟨fresh, once⟩ := List.nodup_cons.mp once
    rw [List.foldl_cons, ih once, Std.ExtTreeMap.getElem?_modify]
    by_cases here : reader = q
    · subst here
      simp [fresh]
    · simp [here, Ne.symm here]

/-- At the start a formula waits for all formulas of the list that it needs. -/
theorem getElem?_waitingCounts (edges : PositionMap PositionSet) (distinct : vertices.Nodup)
    (q : Position) :
    (waitingCounts edges vertices)[q]? =
      if q ∈ vertices then some (unmet edges vertices [] q) else none := by
  have counted : ∀ (writers : List Position) (counts : PositionMap Nat),
      (writers.foldl (fun counts writer =>
        (Needs.readers edges writer).foldl (fun counts reader => counts.modify reader (· + 1))
          counts) counts)[q]? =
        counts[q]?.map (· + unmet edges writers [] q) := by
    intro writers
    induction writers with
    | nil => simp [unmet]
    | cons writer rest ih =>
      intro counts
      rw [List.foldl_cons, ih, getElem?_foldl_modify _ (nodup_readers edges writer)]
      cases counts[q]? with
      | none => simp
      | some n =>
        by_cases reads : q ∈ Needs.readers edges writer
        · simp [reads, unmet]
          omega
        · simp [reads, unmet]
  unfold waitingCounts
  dsimp only
  rw [counted, getElem?_ofList_map (fun _ => 0) distinct]
  split
  · simp
  · rfl

/-- The turns of formulas that need nothing more. -/
def IsReady (edges : PositionMap PositionSet) (priority : Position → Nat)
    (vertices done : List Position) (t : Turn) : Prop :=
  ∃ p ∈ vertices, p ∉ done ∧ unmet edges vertices done p = 0 ∧ t = ⟨priority p, p⟩

/-- The state of ordering tells the truth about the formulas that have run. -/
structure Faithful (needs : Needs) (priority : Position → Nat) (vertices : List Position)
    (s : Progress) : Prop where
  distinct : s.done.Nodup
  inside : ∀ p ∈ s.done, p ∈ vertices
  waiting : ∀ q, s.waiting[q]? =
    if q ∈ vertices then some (unmet needs.all vertices s.done q) else none
  waitingFirmly : ∀ q, s.waitingFirmly[q]? =
    if q ∈ vertices then some (unmet needs.firm vertices s.done q) else none
  ready : ∀ t, t ∈ s.ready ↔ IsReady needs.all priority vertices s.done t

/-- The state at the start is faithful. -/
theorem faithful_start (needs : Needs) (priority : Position → Nat) (distinct : vertices.Nodup) :
    Faithful needs priority vertices (.start needs priority vertices) where
  distinct := List.nodup_nil
  inside := by simp [Progress.start]
  waiting q := getElem?_waitingCounts needs.all distinct q
  waitingFirmly q := getElem?_waitingCounts needs.firm distinct q
  ready t := by
    have counts := getElem?_waitingCounts needs.all distinct
    simp only [Progress.start, Std.ExtTreeSet.mem_ofList, List.contains_iff_mem, List.mem_map,
      List.mem_filter, Prod.exists, Std.ExtTreeMap.mem_toList_iff_getElem?_eq_some, counts,
      beq_iff_eq, IsReady]
    constructor
    · rintro ⟨p, n, ⟨count, none⟩, rfl⟩
      split at count
      · rename_i known
        exact ⟨p, known, by simp, by rw [← none, Option.some.inj count], rfl⟩
      · contradiction
    · rintro ⟨p, known, _, none, rfl⟩
      exact ⟨p, 0, ⟨by rw [if_pos known, none], rfl⟩, rfl⟩

/-! ### One step -/

/-- What meeting one need changes. -/
structure Satisfied (priority : Position → Nat) (readers : List Position) (s s' : Progress) :
    Prop where
  done : s'.done = s.done
  waitingFirmly : s'.waitingFirmly = s.waitingFirmly
  waiting : ∀ q, s'.waiting[q]? =
    if q ∈ readers then s.waiting[q]?.map (· - 1) else s.waiting[q]?
  ready : ∀ t, t ∈ s'.ready ↔ t ∈ s.ready ∨
    ∃ q ∈ readers, q ∉ s.done ∧ s.waiting[q]?.map (· - 1) = some 0 ∧ t = ⟨priority q, q⟩

/-- Membership after the insertion of a turn. -/
theorem mem_insert_turn {ready : Std.ExtTreeSet Turn} {t t' : Turn} :
    t ∈ ready.insert t' ↔ t = t' ∨ t ∈ ready := by
  rw [Std.ExtTreeSet.mem_insert, Std.LawfulEqOrd.compare_eq_iff_eq, eq_comm]

/-- Meeting one need of one formula. -/
theorem satisfied_satisfy (priority : Position → Nat) (s : Progress) (reader : Position) :
    Satisfied priority [reader] s (s.satisfy priority reader) := by
  unfold Progress.satisfy
  cases count : s.waiting[reader]? with
  | none =>
    refine ⟨rfl, rfl, fun q => ?_, fun t => ?_⟩
    · by_cases here : q = reader
      · subst here
        simp [count]
      · simp [here]
    · simp [count]
  | some n =>
    have lower : ∀ q, (s.waiting.insert reader (n - 1))[q]? =
        if q ∈ [reader] then s.waiting[q]?.map (· - 1) else s.waiting[q]? := fun q => by
      simp only [Std.ExtTreeMap.getElem?_insert, Std.LawfulEqOrd.compare_eq_iff_eq]
      by_cases here : reader = q
      · subst here
        simp [count]
      · simp [here, Ne.symm here]
    dsimp only
    split
    · rename_i free
      refine ⟨rfl, rfl, lower, fun t => ?_⟩
      rw [mem_insert_turn]
      simp [count, free.1, free.2, or_comm]
    · rename_i bound
      refine ⟨rfl, rfl, lower, fun t => ?_⟩
      simp only [List.mem_singleton, exists_eq_left, count, Option.map_some, Option.some.injEq]
      constructor
      · exact fun old => .inl old
      · rintro (old | ⟨fresh, none, _⟩)
        · exact old
        · exact absurd ⟨none, fresh⟩ bound

/-- Meeting one need of each of several formulas. -/
theorem satisfied_foldl (priority : Position → Nat) {readers : List Position}
    (once : readers.Nodup) (s : Progress) :
    Satisfied priority readers s (readers.foldl (Progress.satisfy priority) s) := by
  induction readers generalizing s with
  | nil => exact ⟨rfl, rfl, by simp, by simp⟩
  | cons reader rest ih =>
    obtain ⟨fresh, once⟩ := List.nodup_cons.mp once
    have first := satisfied_satisfy priority s reader
    have others := ih once (s.satisfy priority reader)
    have same : ∀ q ∈ rest, (s.satisfy priority reader).waiting[q]? = s.waiting[q]? := by
      intro q later
      rw [first.waiting, if_neg]
      rw [List.mem_singleton]
      rintro rfl
      exact fresh later
    refine ⟨others.done.trans first.done, others.waitingFirmly.trans first.waitingFirmly, ?_, ?_⟩
    · intro q
      rw [List.foldl_cons, others.waiting, first.waiting]
      by_cases here : q = reader
      · subst here
        simp [fresh]
      · simp [here]
    · intro t
      rw [List.foldl_cons, others.ready, first.ready, or_assoc]
      refine or_congr_right ?_
      rw [first.done]
      simp only [List.mem_cons, List.not_mem_nil, or_false, exists_eq_left, exists_eq_or_imp]
      refine or_congr_right (exists_congr fun q => and_congr_right fun later => ?_)
      rw [same q later]

/-- A step adds its formula to those that have run. -/
theorem done_perform (needs : Needs) (priority : Position → Nat) (s : Progress) (p : Position) :
    (s.perform needs priority p).done = p :: s.done :=
  (satisfied_foldl priority (nodup_readers needs.all p) _).done

/-- A step keeps the state faithful. -/
theorem Faithful.perform (faithful : Faithful needs priority vertices s)
    (distinct : vertices.Nodup) (known : p ∈ vertices) (fresh : p ∉ s.done) :
    Faithful needs priority vertices (s.perform needs priority p) := by
  have satisfied := satisfied_foldl priority (nodup_readers needs.all p)
    { s with ready := s.ready.erase ⟨priority p, p⟩, done := p :: s.done }
  have done := done_perform needs priority s p
  have count : ∀ (edges : PositionMap PositionSet) (q : Position),
      unmet edges vertices (p :: s.done) q =
        if q ∈ Needs.readers edges p then unmet edges vertices s.done q - 1
        else unmet edges vertices s.done q := fun edges q => by
    have fewer := unmet_cons edges distinct known fresh q
    split at fewer
    · rename_i reads
      rw [if_pos reads]
      omega
    · rename_i silent
      rw [if_neg silent]
      omega
  refine ⟨?_, ?_, ?_, ?_, ?_⟩
  · rw [done]
    exact List.nodup_cons.mpr ⟨fresh, faithful.distinct⟩
  · rw [done]
    intro q listed
    rcases List.mem_cons.mp listed with rfl | old
    · exact known
    · exact faithful.inside q old
  · intro q
    rw [done, count]
    refine (satisfied.waiting q).trans ?_
    dsimp only
    rw [faithful.waiting]
    by_cases member : q ∈ vertices
    · simp only [member, ↓reduceIte, Option.map_some]
      split <;> rfl
    · simp [member]
  · intro q
    rw [done, count]
    show ((Needs.readers needs.firm p).foldl (fun counts reader => counts.modify reader (· - 1))
      ((Needs.readers needs.all p).foldl (Progress.satisfy priority) _).waitingFirmly)[q]? = _
    rw [satisfied.waitingFirmly, getElem?_foldl_modify _ (nodup_readers needs.firm p)]
    dsimp only
    rw [faithful.waitingFirmly]
    by_cases member : q ∈ vertices
    · simp only [member, ↓reduceIte, Option.map_some]
      split <;> rfl
    · simp [member]
  · intro t
    rw [done]
    refine (satisfied.ready t).trans ?_
    dsimp only
    rw [Std.ExtTreeSet.mem_erase, ne_eq, Std.LawfulEqOrd.compare_eq_iff_eq, faithful.ready]
    constructor
    · rintro (⟨other, q, member, waits, free, rfl⟩ | ⟨q, reads, beyond, free, rfl⟩)
      · have different : q ≠ p := fun same => other (by rw [same])
        refine ⟨q, member, ?_, ?_, rfl⟩
        · rw [List.mem_cons, not_or]
          exact ⟨different, waits⟩
        · rw [count, free]
          split <;> rfl
      · rw [faithful.waiting] at free
        by_cases member : q ∈ vertices
        · rw [if_pos member, Option.map_some, Option.some.injEq] at free
          exact ⟨q, member, beyond, by rw [count, if_pos reads, free], rfl⟩
        · simp [member] at free
    · rintro ⟨q, member, beyond, free, rfl⟩
      rw [List.mem_cons, not_or] at beyond
      rw [count] at free
      by_cases reads : q ∈ Needs.readers needs.all p
      · rw [if_pos reads] at free
        refine .inr ⟨q, reads, ?_, ?_, rfl⟩
        · rw [List.mem_cons, not_or]
          exact beyond
        · rw [faithful.waiting, if_pos member, Option.map_some, free]
      · rw [if_neg reads] at free
        refine .inl ⟨?_, q, member, beyond.2, free, rfl⟩
        rw [Turn.mk.injEq]
        exact fun same => beyond.1 same.2.symm

/-! ### Runs -/

/-- The formula that runs next: the first that is ready, or else the one that is forced. -/
def nextTurn? (force : Progress → Option Position) (s : Progress) : Option Position :=
  (s.ready.min?.map Turn.position) <|> force s

/-- When nothing can run, nothing is forced. -/
theorem force_eq_none {force : Progress → Option Position} (stopped : nextTurn? force s = none) :
    force s = none := by
  unfold nextTurn? at stopped
  cases least : s.ready.min?.map Turn.position with
  | some q =>
    rw [least] at stopped
    contradiction
  | none =>
    rw [least] at stopped
    exact stopped

/-- What every step keeps is kept by a run. -/
theorem run_keeps {Kept : Progress → Prop} {force : Progress → Option Position}
    (step : ∀ s p, Kept s → nextTurn? force s = some p → Kept (s.perform needs priority p))
    (steps : Nat) (s : Progress) (start : Kept s) :
    Kept (s.run needs priority force steps) := by
  induction steps generalizing s with
  | zero => exact start
  | succ steps ih =>
    unfold Progress.run
    split
    · rename_i p found
      exact ih _ (step s p start found)
    · exact start

/-- A run ends early only when nothing is left that could run. -/
theorem run_ends (needs : Needs) (priority : Position → Nat) (force : Progress → Option Position)
    (steps : Nat) (s : Progress) :
    nextTurn? force (s.run needs priority force steps) = none ∨
      (s.run needs priority force steps).done.length = s.done.length + steps := by
  induction steps generalizing s with
  | zero => exact .inr rfl
  | succ steps ih =>
    unfold Progress.run
    split
    · rename_i p found
      rcases ih (s.perform needs priority p) with stopped | full
      · exact .inl stopped
      · rw [full, done_perform, List.length_cons]
        exact .inr (by omega)
    · rename_i found
      exact .inl found

/-- A formula that is ready belongs to the list, has not run and needs nothing more. -/
theorem Faithful.of_min? (faithful : Faithful needs priority vertices s)
    (found : s.ready.min?.map Turn.position = some p) :
    p ∈ vertices ∧ p ∉ s.done ∧ unmet needs.all vertices s.done p = 0 := by
  obtain ⟨t, least, rfl⟩ := Option.map_eq_some_iff.mp found
  obtain ⟨q, member, fresh, free, rfl⟩ := (faithful.ready t).mp (Std.ExtTreeSet.min?_mem least)
  exact ⟨member, fresh, free⟩

/-- Each formula that has run ran when nothing it needs was left to run. The latest is first. -/
def Respects (edges : PositionMap PositionSet) (vertices : List Position) : List Position → Prop
  | [] => True
  | p :: earlier => unmet edges vertices earlier p = 0 ∧ Respects edges vertices earlier

/-- Formulas that ran when nothing they need was left to run come after those they need. -/
theorem Respects.mem_earlier {later earlier : List Position}
    (respects : Respects edges vertices (later ++ p :: earlier)) (known : u ∈ vertices)
    (need : p ∈ Needs.readers edges u) : u ∈ earlier := by
  induction later with
  | nil => exact unmet_eq_zero_iff.mp respects.1 u known need
  | cons q later ih => exact ih respects.2

/-- What an order of formulas keeps while they run. -/
structure Orderly (needs : Needs) (priority : Position → Nat) (edges : PositionMap PositionSet)
    (vertices : List Position) (s : Progress) : Prop extends
    Faithful needs priority vertices s where
  respects : Respects edges vertices s.done

/-- Running a formula without unmet needs is orderly. -/
theorem Orderly.perform (orderly : Orderly needs priority edges vertices s)
    (distinct : vertices.Nodup) (known : p ∈ vertices) (fresh : p ∉ s.done)
    (free : unmet edges vertices s.done p = 0) :
    Orderly needs priority edges vertices (s.perform needs priority p) where
  toFaithful := orderly.toFaithful.perform distinct known fresh
  respects := by
    rw [done_perform]
    exact ⟨free, orderly.respects⟩

/-- The start is orderly. -/
theorem orderly_start (needs : Needs) (priority : Position → Nat)
    (edges : PositionMap PositionSet) (distinct : vertices.Nodup) :
    Orderly needs priority edges vertices (.start needs priority vertices) where
  toFaithful := faithful_start needs priority distinct
  respects := trivial

/-- If every formula that has not run needs another one that has not, one needs itself. -/
theorem exists_cycle_of_stuck
    (stuck : ∀ q ∈ vertices, q ∉ done → unmet edges vertices done q ≠ 0) (known : p ∈ vertices)
    (fresh : p ∉ done) : ∃ q ∈ vertices, Relation.TransGen (Needed edges vertices) q q := by
  obtain ⟨q, left, around⟩ := exists_cycle (Needed edges vertices)
    (vertices.filter fun q => !done.contains q)
    (List.mem_filter.mpr ⟨known, by simpa using fresh⟩) (by
      intro q left
      obtain ⟨member, waits⟩ := List.mem_filter.mp left
      have bound := stuck q member (by simpa using waits)
      rw [ne_eq, unmet_eq_zero_iff] at bound
      push Not at bound
      obtain ⟨u, writer, need, waiting⟩ := bound
      exact ⟨u, List.mem_filter.mpr ⟨writer, by simpa using waiting⟩, need, member⟩)
  exact ⟨q, (List.mem_filter.mp left).1, around⟩

/-- When as many formulas have run as there are, all have. -/
theorem Faithful.mem_done_of_full (faithful : Faithful needs priority vertices s)
    (full : vertices.length ≤ s.done.length) (known : p ∈ vertices) : p ∈ s.done :=
  ((List.subperm_of_subset faithful.distinct faithful.inside).perm_of_length_le full).mem_iff.mpr
    known

/-! ### The strict order -/

/-- The state at the end of the strict order is orderly. -/
theorem orderly_strict (needs : Needs) (priority : Position → Nat) (distinct : vertices.Nodup) :
    Orderly needs priority needs.all vertices
      ((Progress.start needs priority vertices).run needs priority (fun _ => none)
        vertices.length) := by
  refine run_keeps (fun s p orderly found => ?_) _ _
    (orderly_start needs priority needs.all distinct)
  unfold nextTurn? at found
  cases least : s.ready.min?.map Turn.position with
  | some q =>
    rw [least] at found
    obtain rfl := Option.some.inj found
    obtain ⟨known, fresh, free⟩ := orderly.toFaithful.of_min? least
    exact orderly.perform distinct known fresh free
  | none =>
    rw [least] at found
    contradiction

/-! ### The relaxed order -/

/-- A formula that is forced has not run and needs nothing more firmly. -/
theorem Faithful.of_leastBound (faithful : Faithful needs priority vertices s)
    (found : Progress.leastBound priority vertices s = some p) :
    p ∈ vertices ∧ p ∉ s.done ∧ unmet needs.firm vertices s.done p = 0 := by
  obtain ⟨t, least, rfl⟩ := Option.map_eq_some_iff.mp found
  have listed := Std.ExtTreeSet.min?_mem least
  simp only [Std.ExtTreeSet.mem_ofList, List.contains_iff_mem, List.mem_map, List.mem_filter,
    Bool.and_eq_true, Bool.not_eq_true', ← Bool.not_eq_true, beq_iff_eq] at listed
  obtain ⟨q, ⟨known, fresh, free⟩, rfl⟩ := listed
  rw [faithful.waitingFirmly, if_pos known, Option.getD_some] at free
  exact ⟨known, fresh, free⟩

/-- When no formula can be forced, every formula that has not run needs another one firmly. -/
theorem Faithful.of_leastBound_none (faithful : Faithful needs priority vertices s)
    (none : Progress.leastBound priority vertices s = none) (known : p ∈ vertices)
    (fresh : p ∉ s.done) : unmet needs.firm vertices s.done p ≠ 0 := by
  intro free
  have empty := Std.ExtTreeSet.min?_eq_none_iff.mp (Option.map_eq_none_iff.mp none)
  have listed : Turn.mk (priority p) p ∈ (∅ : Std.ExtTreeSet Turn) := by
    rw [← empty, Std.ExtTreeSet.mem_ofList, List.contains_iff_mem]
    refine List.mem_map_of_mem (List.mem_filter.mpr ⟨known, ?_⟩)
    rw [faithful.waitingFirmly, if_pos known, Option.getD_some, free]
    simpa using fresh
  simp at listed

/-- The state at the end of the relaxed order is orderly as far as firm needs go. -/
theorem orderly_relaxed (needs : Needs) (priority : Position → Nat) (distinct : vertices.Nodup)
    (weaker : ∀ u q, q ∈ Needs.readers needs.firm u → q ∈ Needs.readers needs.all u) :
    Orderly needs priority needs.firm vertices
      ((Progress.start needs priority vertices).run needs priority
        (Progress.leastBound priority vertices) vertices.length) := by
  refine run_keeps (fun s p orderly found => ?_) _ _
    (orderly_start needs priority needs.firm distinct)
  unfold nextTurn? at found
  cases least : s.ready.min?.map Turn.position with
  | some q =>
    rw [least] at found
    obtain rfl := Option.some.inj found
    obtain ⟨known, fresh, free⟩ := orderly.toFaithful.of_min? least
    refine orderly.perform distinct known fresh (unmet_eq_zero_iff.mpr fun u member need => ?_)
    exact unmet_eq_zero_iff.mp free u member (weaker u q need)
  | none =>
    rw [least] at found
    obtain ⟨known, fresh, free⟩ := orderly.toFaithful.of_leastBound found
    exact orderly.perform distinct known fresh free

/-- The relaxed order leaves no formula out if none needs itself firmly. -/
theorem mem_relaxedOrder (needs : Needs) (priority : Position → Nat) (distinct : vertices.Nodup)
    (weaker : ∀ u q, q ∈ Needs.readers needs.firm u → q ∈ Needs.readers needs.all u)
    (acyclic : ∀ q ∈ vertices, ¬ Relation.TransGen (Needed needs.firm vertices) q q)
    (known : p ∈ vertices) : p ∈ relaxedOrder needs priority vertices := by
  have orderly := orderly_relaxed needs priority distinct weaker
  unfold relaxedOrder
  rw [List.mem_reverse]
  by_contra fresh
  rcases run_ends needs priority (Progress.leastBound priority vertices) vertices.length
    (Progress.start needs priority vertices) with stopped | full
  · obtain ⟨q, member, around⟩ := exists_cycle_of_stuck (fun q member waits =>
      orderly.toFaithful.of_leastBound_none (force_eq_none stopped) member waits) known fresh
    exact acyclic q member around
  · exact fresh (orderly.toFaithful.mem_done_of_full (by rw [full]; exact Nat.le_add_left _ _) known)

end Schedule

end Spreadsheet
