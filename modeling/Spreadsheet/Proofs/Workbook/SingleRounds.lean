import Spreadsheet.Proofs.Workbook.SingleResults

/-!
# The course of a round without arrays

A round first stamps the formulas on cycles and then gives the others their turns. At every moment
of it a formula that still has its turn is due exactly if it was due at the start or reads one that
has announced another result, and a formula that was evaluated keeps what it would come to now.
-/
namespace Spreadsheet

namespace Workbook

variable {w : Workbook} {p q : Position} {r : Round}

/-- A workbook without arrays in which dependencies are up to date. -/
structure Plain (w : Workbook) : Prop where
  current : w.UpToDate
  registered : w.Registered
  spills : w.spills = .empty

/-- Where no array is spilled every need is firm. -/
theorem readsFirmly_iff_of_bare (bare : w.spills = .empty) :
    Schedule.ReadsFirmly w.dependencies w.spills p q ↔ w.Reads q p := by
  unfold Schedule.ReadsFirmly Reads Schedule.outputZone
  simp only [bare, Spills.owner?_empty, Spills.activeZone?_empty, Option.getD_none,
    implies_true, true_and]
  refine exists_congr fun zone => and_congr_right fun _ => ⟨And.left, fun inside => ⟨inside, ?_⟩⟩
  intro _
  exact Zone.intersects_iff.mpr ⟨p, Zone.contains_single.mpr rfl, inside⟩

/-- The formulas that a round finds on cycles. -/
theorem Plain.mem_cyclic_iff (plain : w.Plain) :
    p ∈ w.plan.cyclic ↔ p ∈ w.vertices ∧ w.OnCycle p :=
  mem_cyclic_plan_iff plain.current.indexed fun _ _ _ reads =>
    (readsFirmly_iff_of_bare plain.spills).mpr reads

/-- What a formula reads has its turn before the formula. -/
theorem mem_before_of_bare (bare : w.spills = .empty) {before after : List Position}
    (split : w.plan.order = before ++ p :: after) (ordered : q ∈ w.plan.order)
    (reads : w.Reads p q) : q ∈ before := by
  have listed : p ∈ w.plan.order := by simp [split]
  refine w.orders_plan.precedes before p after split q ordered ?_
  rw [Schedule.mem_readers_firm_needs, readsFirmly_iff_of_bare bare]
  exact ⟨w.orders_plan.inside q ordered, w.orders_plan.inside p listed, reads⟩

/-- A formula has its turn once. -/
theorem not_mem_of_split {before after : List Position}
    (split : w.plan.order = before ++ p :: after) : p ∉ before := fun listed => by
  have once := w.orders_plan.nodup
  rw [split] at once
  exact (List.nodup_append.mp once).2.2 p listed p List.mem_cons_self rfl

/-- What has had its turn reads nothing whose turn comes later. -/
theorem not_reads_of_bare (bare : w.spills = .empty) {done after : List Position}
    (split : w.plan.order = done ++ p :: after) (ended : q ∈ done ++ [p]) : ¬ w.Reads q p := by
  intro reads
  have fresh := not_mem_of_split split
  have ordered : p ∈ w.plan.order := by simp [split]
  rcases List.mem_append.mp ended with earlier | last
  · obtain ⟨before, between, rfl⟩ := List.append_of_mem earlier
    rw [List.append_assoc, List.cons_append] at split
    exact fresh (List.mem_append_left _ (mem_before_of_bare bare split ordered reads))
  · rw [List.mem_singleton.mp last] at reads
    exact fresh (mem_before_of_bare bare split ordered reads)

/-- A formula is summoned if it is due or reads one that has announced another result. -/
def Summoned (w : Workbook) (announced : Position → Prop) (p : Position) : Prop :=
  p ∈ w.due ∨ ∃ q, announced q ∧ w.Reads p q

/-- The start of a round at a moment when some of the formulas on cycles have been stamped. -/
structure Stamped (w : Workbook) (stamped : List Position) (r : Round) : Prop where
  sources : SameSources w r.workbook
  spills : r.workbook.spills = .empty
  changed : r.workbook.changed = ∅
  pending : ∀ q, q ∈ r.pending ↔ q ∈ w.plan.order
  result : ∀ q, r.workbook.result? q = if q ∈ stamped then some .circular else w.result? q
  dirty : ∀ q ∈ r.workbook.dirty, q ∈ w.plan.cyclic
  due : ∀ q ∈ w.plan.order, q ∈ r.due ↔
    w.Summoned (fun u => u ∈ stamped ∧ ¬ w.SameResult r.workbook u) q

/-- A round at a moment when some of the formulas have had their turns. -/
structure Turned (w : Workbook) (done : List Position) (announced : Position → Prop) (r : Round) :
    Prop where
  sources : SameSources w r.workbook
  spills : r.workbook.spills = .empty
  changed : r.workbook.changed = ∅
  pending : ∀ q, q ∈ r.pending ↔ q ∈ w.plan.order ∧ q ∉ done
  dirty : ∀ q ∈ r.workbook.dirty, q ∈ w.plan.cyclic
  due : ∀ q ∈ w.plan.order, q ∉ done → (q ∈ r.due ↔ w.Summoned announced q)
  circular : ∀ q ∈ w.plan.cyclic, r.workbook.result? q = some .circular
  fresh : ∀ q ∈ done, w.Summoned announced q →
    r.workbook.result? q = some (r.workbook.compute q).outcome
  kept : ∀ q, q ∉ w.plan.cyclic → (q ∈ done → ¬ w.Summoned announced q) →
    r.workbook.result? q = w.result? q
  announced_iff : ∀ q, announced q ↔
    (q ∈ w.plan.cyclic ∨ q ∈ done ∧ w.Summoned announced q) ∧ ¬ w.SameResult r.workbook q

/-- Whoever a step of a round tells is a formula that reads the one the news comes from. -/
theorem touched_iff (current : w.UpToDate) (same : SameSources w r.workbook) :
    Round.Touched r.workbook p [p] q ↔ q ≠ p ∧ w.Reads q p := by
  simp only [Round.Touched, same.isFormula, same.dependencies, List.mem_singleton,
    exists_eq_left, current.mem_readersOf]
  exact and_congr_right fun _ => ⟨And.right, fun reads => ⟨current.isFormula_of_reads reads, reads⟩⟩

/-- Stamping one more formula on a cycle. -/
theorem Stamped.step (plain : w.Plain) {stamped : List Position} (start : w.Stamped stamped r)
    (cyclic : p ∈ w.plan.cyclic) : w.Stamped (stamped ++ [p]) (r.publish p .circular) := by
  have scheduled := (plain.mem_cyclic_iff.mp cyclic).1
  have formula : r.workbook.isFormula p = true := by
    rw [start.sources.isFormula]
    exact isFormula_of_mem_vertices scheduled
  have step : r.Publishes p .circular (r.publish p .circular) :=
    Round.publishes_single start.spills formula _ _
  have result : ∀ q, (r.publish p .circular).workbook.result? q =
      if q ∈ stamped ++ [p] then some .circular else w.result? q := fun q => by
    rw [step.result, start.result]
    by_cases here : q = p
    · simp [here]
    · simp [here]
  refine ⟨start.sources.trans step.sources, step.spills.trans start.spills,
    step.changed.trans start.changed, fun q => by rw [step.pending, start.pending], result, ?_, ?_⟩
  · intro q marked
    rcases (step.mem_dirty q).mp marked with old | ⟨outside, _, told⟩
    · exact start.dirty q old
    · have reads := ((touched_iff plain.current start.sources).mp told).2
      rcases w.orders_plan.covers q (plain.current.mem_vertices_of_reads scheduled reads) with
        ordered | cyclic'
      · exact absurd ((start.pending q).mpr ordered) outside
      · exact cyclic'
  · intro q ordered
    have other : q ≠ p := fun same => w.orders_plan.apart q ordered (same ▸ cyclic)
    rw [step.mem_due, start.due q ordered, touched_iff plain.current start.sources]
    have before : ∀ u ∈ stamped,
        (w.SameResult (r.publish p .circular).workbook u ↔ w.SameResult r.workbook u) := by
      intro u listed
      refine sameResult_congr rfl ?_
      rw [result, start.result, if_pos listed, if_pos (List.mem_append_left _ listed)]
    have waits : q ∈ r.pending := (start.pending q).mpr ordered
    simp only [Summoned, or_assoc]
    refine or_congr_right ?_
    by_cases known : p ∈ stamped
    · -- The formula has been stamped before, so this time there is no news.
      have same : r.workbook.SameResult (r.publish p .circular).workbook p :=
        ⟨.circular, .circular, by rw [start.result, if_pos known],
          by rw [step.result, if_pos rfl], Outcome.same_circular⟩
      constructor
      · rintro (⟨u, ⟨listed, news⟩, reads⟩ | ⟨_, news, _⟩)
        · exact ⟨u, ⟨List.mem_append_left _ listed, by rwa [before u listed]⟩, reads⟩
        · exact absurd same news
      · rintro ⟨u, ⟨listed, news⟩, reads⟩
        have listed' : u ∈ stamped := by
          rcases List.mem_append.mp listed with old | new
          · exact old
          · rwa [List.mem_singleton.mp new]
        exact .inl ⟨u, ⟨listed', by rwa [before u listed'] at news⟩, reads⟩
    · have compared : r.workbook.SameResult (r.publish p .circular).workbook p ↔
          w.SameResult (r.publish p .circular).workbook p :=
        sameResult_congr (by rw [start.result, if_neg known]) rfl
      constructor
      · rintro (⟨u, ⟨listed, news⟩, reads⟩ | ⟨_, news, _, reads⟩)
        · exact ⟨u, ⟨List.mem_append_left _ listed, by rwa [before u listed]⟩, reads⟩
        · exact ⟨p, ⟨by simp, by rwa [← compared]⟩, reads⟩
      · rintro ⟨u, ⟨listed, news⟩, reads⟩
        rcases List.mem_append.mp listed with old | new
        · exact .inl ⟨u, ⟨old, by rwa [before u old] at news⟩, reads⟩
        · rw [List.mem_singleton.mp new] at news reads
          exact .inr ⟨waits, by rwa [compared], other, reads⟩

/-- The start of a round stamps the formulas on cycles. -/
theorem Plain.stamped_opening (plain : w.Plain) :
    w.Stamped w.plan.cyclic (w.opening w.plan) := by
  have start : w.Stamped [] ⟨w.unmarked, .ofList w.plan.order compare, w.due⟩ := by
    refine ⟨w.sameSources_unmarked, plain.spills, rfl, fun q => PositionSet.mem_ofList, fun q => rfl,
      fun q marked => absurd marked Std.ExtTreeSet.not_mem_empty, fun q _ => ?_⟩
    simp [Summoned]
  have run : ∀ (rest stamped : List Position) (r : Round), (∀ p ∈ rest, p ∈ w.plan.cyclic) →
      w.Stamped stamped r →
        w.Stamped (stamped ++ rest) (rest.foldl (fun r p => r.publish p .circular) r) := by
    intro rest
    induction rest with
    | nil => exact fun stamped r _ now => by rwa [List.append_nil]
    | cons p rest ih =>
      intro stamped r cyclic now
      have next := ih (stamped ++ [p]) _ (fun q listed => cyclic q (List.mem_cons_of_mem _ listed))
        (now.step plain (cyclic p List.mem_cons_self))
      rwa [List.append_assoc] at next
  exact run w.plan.cyclic [] _ (fun _ listed => listed) start

/-- Once the formulas on cycles are stamped, the turns begin. -/
theorem Stamped.turned (start : w.Stamped w.plan.cyclic r) :
    w.Turned [] (fun u => u ∈ w.plan.cyclic ∧ ¬ w.SameResult r.workbook u) r where
  sources := start.sources
  spills := start.spills
  changed := start.changed
  pending q := by rw [start.pending]; simp
  dirty := start.dirty
  due q ordered _ := start.due q ordered
  circular q cyclic := by rw [start.result, if_pos cyclic]
  fresh q none := absurd none List.not_mem_nil
  kept q free _ := by rw [start.result, if_neg free]
  announced_iff q := by simp

namespace Turned

variable {done after : List Position} {announced : Position → Prop}

/-- A turn that begins is no longer to come. -/
theorem mem_pending_erase (turned : w.Turned done announced r) :
    q ∈ r.pending.erase p ↔ q ∈ w.plan.order ∧ q ∉ done ++ [p] := by
  rw [PositionSet.mem_erase, turned.pending, List.mem_append, List.mem_singleton, not_or]
  constructor
  · exact fun ⟨other, ordered, later⟩ => ⟨ordered, later, other⟩
  · exact fun ⟨ordered, later, other⟩ => ⟨other, ordered, later⟩

/-- What a formula announces summons none that has had its turn. -/
theorem summoned_iff (plain : w.Plain) (split : w.plan.order = done ++ p :: after)
    (ended : q ∈ done ++ [p]) (news : Prop) :
    w.Summoned (fun u => announced u ∨ u = p ∧ news) q ↔ w.Summoned announced q := by
  refine or_congr_right (exists_congr fun u => ?_)
  constructor
  · rintro ⟨old | ⟨rfl, _⟩, reads⟩
    · exact ⟨old, reads⟩
    · exact absurd reads (not_reads_of_bare plain.spills split ended)
  · exact fun ⟨old, reads⟩ => ⟨.inl old, reads⟩

/-- What has had its turn comes to the same after a later formula has published its result. -/
theorem compute_eq (plain : w.Plain) (turned : w.Turned done announced r)
    (split : w.plan.order = done ++ p :: after) {r' : Round}
    (same : SameSources r.workbook r'.workbook) (spills : r'.workbook.spills = .empty)
    (others : ∀ u, u ≠ p → r'.workbook.result? u = r.workbook.result? u) (ended : q ∈ done ++ [p]) :
    r'.workbook.compute q = r.workbook.compute q := by
  refine compute_congr_results (plain.current.of_sameSources turned.sources)
    (plain.registered.congr turned.sources.toSameSheets) same (spills.trans turned.spills.symm) ?_
  intro u reads
  refine others u fun same => not_reads_of_bare plain.spills split ended ?_
  rw [← same]
  unfold Reads at reads
  rwa [turned.sources.dependencies] at reads

/-- Where a turn is over, nobody but formulas on cycles is told to be evaluated again. -/
theorem cyclic_of_told (plain : w.Plain) (split : w.plan.order = done ++ p :: after)
    (reads : w.Reads q p) (ended : q ∈ w.plan.order → q ∈ done ++ [p]) : q ∈ w.plan.cyclic := by
  have scheduled := w.orders_plan.inside p (by simp [split])
  rcases w.orders_plan.covers q (plain.current.mem_vertices_of_reads scheduled reads) with
    ordered | cyclic
  · exact absurd reads (not_reads_of_bare plain.spills split (ended ordered))
  · exact cyclic

/-- The turn of a formula that is not due. -/
theorem begin (turned : w.Turned done announced r) (split : w.plan.order = done ++ p :: after)
    (fresh : p ∉ done) (idle : p ∉ r.due) : w.Turned (done ++ [p]) announced (r.begin p) := by
  have ordered : p ∈ w.plan.order := by simp [split]
  have quiet : ¬ w.Summoned announced p := fun summoned =>
    idle ((turned.due p ordered fresh).mpr summoned)
  refine ⟨turned.sources, turned.spills, turned.changed, fun q => turned.mem_pending_erase,
    turned.dirty, fun q listed later => ?_, turned.circular, fun q ended summoned => ?_,
    fun q free unasked => ?_, fun q => ?_⟩
  · exact turned.due q listed fun earlier => later (List.mem_append_left _ earlier)
  · rcases List.mem_append.mp ended with earlier | last
    · exact turned.fresh q earlier summoned
    · rw [List.mem_singleton.mp last] at summoned
      exact absurd summoned quiet
  · exact turned.kept q free fun earlier => unasked (List.mem_append_left _ earlier)
  · rw [turned.announced_iff q]
    refine and_congr_left fun _ => or_congr_right ?_
    constructor
    · exact fun ⟨earlier, summoned⟩ => ⟨List.mem_append_left _ earlier, summoned⟩
    · rintro ⟨ended, summoned⟩
      rcases List.mem_append.mp ended with earlier | last
      · exact ⟨earlier, summoned⟩
      · rw [List.mem_singleton.mp last] at summoned
        exact absurd summoned quiet

section Evaluation

variable {r' : Round} {outcome : Outcome}

/-- A result that was published in a turn is compared with the one that the formula had first. -/
theorem sameResult_iff_of_publishes (turned : w.Turned done announced r)
    (split : w.plan.order = done ++ p :: after) :
    ((r.begin p).note p).workbook.SameResult r'.workbook p ↔ w.SameResult r'.workbook p := by
  have ordered : p ∈ w.plan.order := by simp [split]
  have kept : r.workbook.result? p = w.result? p :=
    turned.kept p (w.orders_plan.apart p ordered) fun earlier =>
      absurd earlier (not_mem_of_split split)
  exact sameResult_congr kept rfl

/-- Of those that a published result concerns only formulas on cycles have to wait for the next
round. -/
theorem dirty_of_publishes (plain : w.Plain) (turned : w.Turned done announced r)
    (split : w.plan.order = done ++ p :: after)
    (step : ((r.begin p).note p).Publishes p outcome r') (marked : q ∈ r'.workbook.dirty) :
    q ∈ w.plan.cyclic := by
  rcases (step.mem_dirty q).mp marked with old | ⟨outside, _, touched⟩
  · exact turned.dirty q old
  · have reads := ((touched_iff plain.current (turned.sources.trans
      ((r.begin p).sameSources_note p))).mp touched).2
    refine cyclic_of_told plain split reads fun listed => ?_
    by_contra later
    exact outside (turned.mem_pending_erase.mpr ⟨listed, later⟩)

/-- A formula whose turn is still to come is due after a result was published if it is summoned by
what has been announced, that result included. -/
theorem mem_due_of_publishes (plain : w.Plain) (turned : w.Turned done announced r)
    (split : w.plan.order = done ++ p :: after)
    (step : ((r.begin p).note p).Publishes p outcome r') (listed : q ∈ w.plan.order)
    (later : q ∉ done ++ [p]) :
    q ∈ r'.due ↔
      w.Summoned (fun u => announced u ∨ u = p ∧ ¬ w.SameResult r'.workbook p) q := by
  have earlier : q ∉ done := fun ended => later (List.mem_append_left _ ended)
  have other : q ≠ p := fun same => later (by simp [same])
  have waits : q ∈ ((r.begin p).note p).pending := turned.mem_pending_erase.mpr ⟨listed, later⟩
  rw [step.mem_due, turned.sameResult_iff_of_publishes split,
    touched_iff plain.current (turned.sources.trans ((r.begin p).sameSources_note p))]
  show q ∈ r.due ∨ _ ↔ _
  rw [turned.due q listed earlier]
  simp only [Summoned, or_assoc]
  refine or_congr_right ?_
  constructor
  · rintro (⟨u, old, reads⟩ | ⟨_, news, _, reads⟩)
    · exact ⟨u, .inl old, reads⟩
    · exact ⟨p, .inr ⟨rfl, news⟩, reads⟩
  · rintro ⟨u, old | ⟨rfl, news⟩, reads⟩
    · exact .inl ⟨u, old, reads⟩
    · exact .inr ⟨waits, news, other, reads⟩

/-- What has been announced when a formula was summoned and has published its result. -/
theorem announced_iff_of_publishes (plain : w.Plain) (turned : w.Turned done announced r)
    (split : w.plan.order = done ++ p :: after) (summoned : w.Summoned announced p)
    (others : ∀ q, q ≠ p → r'.workbook.result? q = r.workbook.result? q) (q : Position) :
    (announced q ∨ q = p ∧ ¬ w.SameResult r'.workbook p) ↔
      (q ∈ w.plan.cyclic ∨ q ∈ done ++ [p] ∧
        w.Summoned (fun u => announced u ∨ u = p ∧ ¬ w.SameResult r'.workbook p) q) ∧
          ¬ w.SameResult r'.workbook q := by
  have ordered : p ∈ w.plan.order := by simp [split]
  have summons : q ∈ done ++ [p] →
      (w.Summoned (fun u => announced u ∨ u = p ∧ ¬ w.SameResult r'.workbook p) q ↔
        w.Summoned announced q) := fun ended => summoned_iff plain split ended _
  by_cases here : q = p
  · subst here
    have ended : q ∈ done ++ [q] := by simp
    have old : ¬ announced q := fun told => by
      rcases ((turned.announced_iff q).mp told).1 with cyclic | ⟨earlier, _⟩
      · exact w.orders_plan.apart q ordered cyclic
      · exact not_mem_of_split split earlier
    simp [old, (summons ended).mpr summoned]
  · rw [or_iff_left fun both => here both.1, turned.announced_iff q,
      sameResult_congr rfl (others q here)]
    refine and_congr_left fun _ => or_congr_right ?_
    constructor
    · rintro ⟨earlier, asked⟩
      have ended := List.mem_append_left [p] earlier
      exact ⟨ended, (summons ended).mpr asked⟩
    · rintro ⟨ended, asked⟩
      exact ⟨(List.mem_append.mp ended).resolve_right fun last => here (List.mem_singleton.mp last),
        (summons ended).mp asked⟩

/-- The turn of a formula that is due and comes to a single value. -/
theorem evaluate (plain : w.Plain) (turned : w.Turned done announced r)
    (split : w.plan.order = done ++ p :: after) (fresh : p ∉ done) (due : p ∈ r.due)
    {value : Value} {format : Option String}
    (single : (r.workbook.compute p).outcome = .single value format) :
    ∃ announced', w.Turned (done ++ [p]) announced' ((r.begin p).evaluate p) := by
  have ordered : p ∈ w.plan.order := by simp [split]
  have summoned : w.Summoned announced p := (turned.due p ordered fresh).mp due
  have free : p ∉ w.plan.cyclic := w.orders_plan.apart p ordered
  have formula : r.workbook.isFormula p = true := by
    rw [turned.sources.isFormula]
    exact isFormula_of_mem_vertices (w.orders_plan.inside p ordered)
  have published : (r.begin p).evaluate p = ((r.begin p).note p).publish p (.single value format) :=
    congrArg (((r.begin p).note p).publish p) single
  have step := Round.publishes_single (r := (r.begin p).note p) turned.spills formula value format
  rw [← published] at step
  generalize (r.begin p).evaluate p = r' at step
  have noting := ((r.begin p).sameSources_note p).trans step.sources
  have result : ∀ q, r'.workbook.result? q =
      if q = p then some (.single value format) else r.workbook.result? q := step.result
  have others : ∀ q, q ≠ p → r'.workbook.result? q = r.workbook.result? q := fun q other => by
    rw [result, if_neg other]
  have summons : ∀ q ∈ done ++ [p],
      (w.Summoned (fun u => announced u ∨ u = p ∧ ¬ w.SameResult r'.workbook p) q ↔
        w.Summoned announced q) := fun q ended => summoned_iff plain split ended _
  refine ⟨fun u => announced u ∨ u = p ∧ ¬ w.SameResult r'.workbook p,
    turned.sources.trans noting, step.spills.trans turned.spills, step.changed.trans turned.changed,
    fun q => ?_, fun q marked => turned.dirty_of_publishes plain split step marked,
    fun q listed later => turned.mem_due_of_publishes plain split step listed later,
    fun q cyclic => ?_, fun q ended asked => ?_, fun q apart unasked => ?_,
    turned.announced_iff_of_publishes plain split summoned others⟩
  · rw [step.pending]
    exact turned.mem_pending_erase
  · rw [others q fun same => free (same ▸ cyclic)]
    exact turned.circular q cyclic
  · rw [turned.compute_eq plain split noting (step.spills.trans turned.spills) others ended]
    by_cases here : q = p
    · rw [here, result, if_pos rfl, single]
    · have earlier : q ∈ done := (List.mem_append.mp ended).resolve_right fun last =>
        here (List.mem_singleton.mp last)
      rw [others q here]
      exact turned.fresh q earlier ((summons q ended).mp asked)
  · by_cases here : q = p
    · have ended : q ∈ done ++ [p] := by simp [here]
      exact absurd ((summons q ended).mpr (here ▸ summoned)) (unasked ended)
    · rw [others q here]
      refine turned.kept q apart fun earlier asked => ?_
      have ended := List.mem_append_left [p] earlier
      exact unasked ended ((summons q ended).mpr asked)

end Evaluation

end Turned

/-- Every formula that is evaluated in the first round comes to a single value. -/
def EvaluatesSingles (w : Workbook) : Prop :=
  ∀ before p after, w.plan.order = before ++ p :: after →
    p ∈ (before.foldl Round.turn (w.opening w.plan)).due →
      ∃ value format,
        ((before.foldl Round.turn (w.opening w.plan)).workbook.compute p).outcome =
          .single value format

/-- A formula that is a reference comes to a single value. -/
theorem single_of_isReference (found : ∀ e, w.expr? p = some e → e.isReference = true) :
    ∃ value format, (w.compute p).outcome = .single value format := by
  rw [expr?_eq] at found
  unfold compute
  cases formula : w.formula? p with
  | none => exact ⟨_, _, rfl⟩
  | some f =>
    cases parsed : f.tree with
    | error e =>
      simp only [parsed]
      exact ⟨_, _, rfl⟩
    | ok e =>
      have reference : e.isReference = true :=
        found e (by rw [formula, Option.bind_some, Formula.expr?, parsed]; rfl)
      have alone : ∀ value format, ∃ v f, Outcome.ofSingle e.isCall value format = .single v f := by
        intro value format
        cases e with
        | reference target spelling span =>
          cases format <;> exact ⟨_, _, rfl⟩
        | _ => contradiction
      simp only [parsed, Outcome.ofResult, reference, if_true]
      split
      · exact ⟨_, _, rfl⟩
      · exact ⟨_, _, rfl⟩
      · exact alone _ _

/-- References come to single values. -/
theorem evaluatesSingles_of_references
    (references : ∀ p e, w.expr? p = some e → e.isReference = true) : w.EvaluatesSingles := by
  intro before p after _ _
  have sources : SameSources w (before.foldl Round.turn (w.opening w.plan)).workbook :=
    List.foldlRecOn before _ (motive := fun (r : Round) => SameSources w r.workbook)
      (w.sameSources_opening _) fun r sources p _ => sources.trans (r.sameSources_turn p)
  refine single_of_isReference fun e tree => ?_
  rw [sources.expr?] at tree
  exact references p e tree

/-- All turns of a round. -/
theorem Plain.turned_turns (plain : w.Plain) (singles : w.EvaluatesSingles) :
    ∃ announced, w.Turned w.plan.order announced
      (w.plan.order.foldl Round.turn (w.opening w.plan)) := by
  have run : ∀ (rest done : List Position), w.plan.order = done ++ rest →
      (∃ announced, w.Turned done announced (done.foldl Round.turn (w.opening w.plan))) →
        ∃ announced, w.Turned w.plan.order announced
          (w.plan.order.foldl Round.turn (w.opening w.plan)) := by
    intro rest
    induction rest with
    | nil =>
      intro done split now
      rw [List.append_nil] at split
      rwa [split]
    | cons p rest ih =>
      rintro done split ⟨announced, turned⟩
      have fresh := not_mem_of_split split
      refine ih (done ++ [p]) (by rw [split, List.append_assoc, List.singleton_append]) ?_
      rw [List.foldl_append, List.foldl_cons, List.foldl_nil]
      generalize reached : done.foldl Round.turn (w.opening w.plan) = r at turned
      have due : (r.begin p).due = r.due := rfl
      unfold Round.turn
      dsimp only
      rw [due]
      by_cases waits : p ∈ r.due
      · rw [if_pos (Std.ExtTreeSet.contains_iff_mem.mpr waits)]
        obtain ⟨value, format, single⟩ := singles done p rest split (by rwa [reached])
        rw [reached] at single
        exact turned.evaluate plain split fresh waits single
      · rw [if_neg fun found => waits (Std.ExtTreeSet.contains_iff_mem.mp found)]
        exact ⟨announced, turned.begin split fresh waits⟩
  exact run w.plan.order [] rfl ⟨_, plain.stamped_opening.turned⟩

/-- Turns that nobody is summoned to change nothing. -/
theorem Turned.idle {done rest : List Position} {announced : Position → Prop}
    (turned : w.Turned done announced r) (split : w.plan.order = done ++ rest)
    (quiet : ∀ q ∈ w.plan.order, ¬ w.Summoned announced q) :
    w.Turned w.plan.order announced (rest.foldl Round.turn r) := by
  induction rest generalizing done r with
  | nil =>
    rw [List.append_nil] at split
    rwa [split]
  | cons p rest ih =>
    have fresh := not_mem_of_split split
    have ordered : p ∈ w.plan.order := by simp [split]
    have idle : p ∉ r.due := fun due => quiet p ordered ((turned.due p ordered fresh).mp due)
    have turn : r.turn p = r.begin p :=
      if_neg fun found => idle (Std.ExtTreeSet.contains_iff_mem.mp found)
    rw [List.foldl_cons, turn]
    exact ih (turned.begin split fresh idle)
      (by rw [split, List.append_assoc, List.singleton_append])

end Workbook

end Spreadsheet
