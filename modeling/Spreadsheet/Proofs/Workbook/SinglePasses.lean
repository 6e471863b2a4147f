import Spreadsheet.Proofs.Workbook.FormattedCells
import Spreadsheet.Proofs.Workbook.RunMoments

/-!
# Single passes

Where no array is spilled and no formula reads its own result, a round gives every formula its turn
after those that it reads. So a formula is made due only before its turn, and one round does for a
recalculation: it evaluates each formula at most once, and those only that the edit concerns or that
read a formula which came to something else.
-/
namespace Spreadsheet

/-- Where no anchor has a state there are no arrays. -/
theorem Spills.Sound.eq_empty {s : Spills} (sound : s.Sound) (bare : ∀ a, s.state? a = none) :
    s = .empty := by
  have records : s.records = ∅ := Std.ExtTreeMap.ext_getElem? fun a =>
    (bare a).trans Std.ExtTreeMap.getElem?_empty.symm
  have owners : s.owners = ∅ := Std.ExtTreeMap.ext_getElem? fun q => by
    cases leads : s.owners[q]? with
    | none => simp
    | some a =>
      obtain ⟨zone, active, _⟩ := sound.covered q a leads
      simp [activeZone?, bare a] at active
  cases s
  simp only at records owners
  rw [records, owners]
  rfl

/-- Publishing a single result evaluates nothing. -/
theorem Round.journal_publish_single {r : Round} {p : Position} (bare : r.workbook.spills = .empty)
    (formula : r.workbook.isFormula p = true) (value : Value) (format : Option String) :
    (r.publish p (.single value format)).workbook.journal = r.workbook.journal := by
  obtain ⟨f, found⟩ := Option.isSome_iff_exists.mp formula
  rw [(marks_publish_single bare found value format).workbook]
  rfl

namespace Workbook

variable {w w₁ : Workbook} {p q : Position} {r : Round} {request : Request}
  {done after : List Position} {entries : List JournalEntry}

/-! ### The course of a round -/

/-- A workbook without arrays in which no formula reads its own result, be it through others. -/
structure Straight (w : Workbook) : Prop where
  indexed : w.dependencies.Indexed
  spills : w.spills = .empty
  acyclic : ∀ p, ¬ w.OnCycle p

namespace Straight

/-- A round finds no formulas on cycles. -/
theorem cyclic_plan (straight : w.Straight) : w.plan.cyclic = [] :=
  List.eq_nil_iff_forall_not_mem.mpr fun p cyclic =>
    straight.acyclic p ((mem_cyclic_plan_iff straight.indexed fun _ _ _ reads =>
      (readsFirmly_iff_of_bare straight.spills).mpr reads).mp cyclic).2

/-- Every formula that is scheduled gets its turn. -/
theorem mem_order_iff (straight : w.Straight) : p ∈ w.plan.order ↔ p ∈ w.vertices := by
  refine ⟨w.orders_plan.inside p, fun scheduled => ?_⟩
  have settled := w.orders_plan.covers p scheduled
  rw [straight.cyclic_plan] at settled
  exact settled.resolve_right List.not_mem_nil

/-- A formula that reads one which gets its turn gets its turn. -/
theorem mem_order_of_reads (straight : w.Straight) (ordered : q ∈ w.plan.order)
    (reads : w.Reads p q) (formula : w.isFormula p = true) : p ∈ w.plan.order :=
  straight.mem_order_iff.mpr (mem_vertices_of_reads straight.indexed
    (straight.mem_order_iff.mp ordered) reads formula)

/-- Turns begin at once. -/
theorem opening_eq (straight : w.Straight) : w.opening w.plan = w.start := by
  unfold opening
  rw [straight.cyclic_plan]
  rfl

/-- A round is the turns of all formulas that are scheduled. -/
theorem recalculateOnce_eq (straight : w.Straight) :
    w.recalculateOnce = (w.plan.order.foldl Round.turn w.start).workbook := by
  unfold recalculateOnce
  split
  · rename_i idle
    have order : w.plan.order = [] := List.eq_nil_iff_forall_not_mem.mpr fun p ordered =>
      not_mem_vertices_of_idle straight.indexed idle (w.orders_plan.inside p ordered)
    rw [order]
    rfl
  · dsimp only
    rw [straight.opening_eq]

end Straight

/-- The formulas that have been evaluated, the latest first. -/
def evaluated (entries : List JournalEntry) : List Position := entries.map JournalEntry.formula

/-- A formula has cause to be evaluated: it was due at the start, or it reads one that was evaluated
and keeps another result now. -/
def Prompted (w : Workbook) (entries : List JournalEntry) (w' : Workbook) (p : Position) : Prop :=
  p ∈ w.due ∨ ∃ u ∈ evaluated entries, w.Reads p u ∧ ¬ w.SameResult w' u

/-- A round at a moment when some of the formulas have had their turns: those that had cause to be
evaluated have been, once each, and of the others those are due that have cause now. -/
structure Passed (w : Workbook) (done : List Position) (entries : List JournalEntry) (r : Round) :
    Prop where
  sources : SameSources w r.workbook
  spills : r.workbook.spills = .empty
  unmarked : r.workbook.Unmarked
  pending : ∀ q, q ∈ r.pending ↔ q ∈ w.plan.order ∧ q ∉ done
  journal : r.workbook.journal = entries ++ w.journal
  once : (evaluated entries).Nodup
  mem_evaluated : ∀ q, q ∈ evaluated entries ↔ q ∈ done ∧ w.Prompted entries r.workbook q
  due : ∀ q ∈ w.plan.order, q ∉ done → (q ∈ r.due ↔ w.Prompted entries r.workbook q)
  kept : ∀ q, q ∉ evaluated entries → r.workbook.result? q = w.result? q

/-- At the start those are due that have cause. -/
theorem Straight.passed_start (straight : w.Straight) : w.Passed [] [] w.start where
  sources := w.sameSources_unmarked
  spills := straight.spills
  unmarked := ⟨rfl, rfl⟩
  pending q := by simp [start]
  journal := rfl
  once := .nil
  mem_evaluated q := by simp [evaluated]
  due q _ _ := by simp [start, Prompted, evaluated]
  kept q _ := rfl

namespace Passed

/-- A turn that begins is no longer to come. -/
theorem mem_pending_erase (passed : w.Passed done entries r) :
    q ∈ r.pending.erase p ↔ q ∈ w.plan.order ∧ q ∉ done ++ [p] := by
  rw [PositionSet.mem_erase, passed.pending, List.mem_append, List.mem_singleton, not_or]
  constructor
  · exact fun ⟨other, ordered, later⟩ => ⟨ordered, later, other⟩
  · exact fun ⟨ordered, later, other⟩ => ⟨other, ordered, later⟩

/-- The turn of a formula that is not due. -/
theorem skip (passed : w.Passed done entries r) (split : w.plan.order = done ++ p :: after)
    (idle : p ∉ r.due) : w.Passed (done ++ [p]) entries (r.begin p) where
  sources := passed.sources
  spills := passed.spills
  unmarked := passed.unmarked
  pending q := passed.mem_pending_erase
  journal := passed.journal
  once := passed.once
  mem_evaluated q := by
    have quiet : ¬ w.Prompted entries r.workbook p := fun prompted =>
      idle ((passed.due p (by simp [split]) (not_mem_of_split split)).mpr prompted)
    rw [passed.mem_evaluated, List.mem_append, List.mem_singleton]
    refine and_congr_left fun prompted => ⟨.inl, fun ended => ended.resolve_right fun last => ?_⟩
    exact quiet (last ▸ prompted)
  due q ordered later := passed.due q ordered fun earlier =>
    later (List.mem_append_left _ earlier)
  kept := passed.kept

/-- A formula has cause to be evaluated after the evaluation of another one if it had cause before,
or reads that one and it has come to something else. -/
theorem prompted_cons {w' w'' : Workbook} {calls : List String} (fresh : p ∉ evaluated entries)
    (others : ∀ u, u ≠ p → w''.result? u = w'.result? u) :
    w.Prompted (⟨p, calls⟩ :: entries) w'' q ↔
      w.Prompted entries w' q ∨ w.Reads q p ∧ ¬ w.SameResult w'' p := by
  have same : ∀ u ∈ evaluated entries, (w.SameResult w'' u ↔ w.SameResult w' u) :=
    fun u listed => sameResult_congr rfl (others u fun here => fresh (here ▸ listed))
  simp only [Prompted, or_assoc]
  refine or_congr_right ?_
  constructor
  · rintro ⟨u, listed, reads, news⟩
    rcases List.mem_cons.mp listed with rfl | earlier
    · exact .inr ⟨reads, news⟩
    · exact .inl ⟨u, earlier, reads, by rwa [← same u earlier]⟩
  · rintro (⟨u, earlier, reads, news⟩ | ⟨reads, news⟩)
    · exact ⟨u, List.mem_cons_of_mem _ earlier, reads, by rwa [same u earlier]⟩
    · exact ⟨p, List.mem_cons_self, reads, news⟩

section Evaluation

variable {r' : Round} {outcome : Outcome}

/-- Whoever is told by a formula whose turn it is reads the formula and has its turn later. -/
theorem later_of_touched (straight : w.Straight) (passed : w.Passed done entries r)
    (split : w.plan.order = done ++ p :: after)
    (touched : Round.Touched ((r.begin p).note p).workbook p [p] q) :
    w.Reads q p ∧ q ∈ ((r.begin p).note p).pending := by
  obtain ⟨_, reader, u, listed, reads⟩ := touched
  rw [List.mem_singleton.mp listed] at reads
  have recorded : q ∈ w.dependencies.readersOf p := passed.sources.dependencies ▸ reads
  have direct := straight.indexed.mem_readersOf.mp recorded
  have formula : w.isFormula q = true := (passed.sources.isFormula q).symm.trans reader
  refine ⟨direct, passed.mem_pending_erase.mpr ⟨?_, fun ended => ?_⟩⟩
  · exact straight.mem_order_of_reads (by simp [split]) direct formula
  · exact not_reads_of_bare straight.spills split ended direct

/-- Nobody has to wait for the next round. -/
theorem unmarked_of_publishes (straight : w.Straight) (passed : w.Passed done entries r)
    (split : w.plan.order = done ++ p :: after)
    (step : ((r.begin p).note p).Publishes p outcome r') : r'.workbook.Unmarked := by
  refine ⟨Std.ExtTreeSet.eq_empty_iff_forall_not_mem.mpr fun q marked => ?_,
    step.changed.trans passed.unmarked.2⟩
  rcases (step.mem_dirty q).mp marked with old | ⟨outside, _, touched⟩
  · have none : q ∈ (∅ : PositionSet) := passed.unmarked.1 ▸ old
    exact Std.ExtTreeSet.not_mem_empty none
  · exact outside (passed.later_of_touched straight split touched).2

/-- A formula whose turn is still to come is due after a result was published if it was due, or if
it reads the formula and that has come to something else. -/
theorem mem_due_of_publishes (straight : w.Straight) (passed : w.Passed done entries r)
    (split : w.plan.order = done ++ p :: after) (new : p ∉ evaluated entries)
    (step : ((r.begin p).note p).Publishes p outcome r') (listed : q ∈ w.plan.order)
    (later : q ∉ done ++ [p]) :
    q ∈ r'.due ↔ q ∈ r.due ∨ w.Reads q p ∧ ¬ w.SameResult r'.workbook p := by
  have compared : ((r.begin p).note p).workbook.SameResult r'.workbook p ↔
      w.SameResult r'.workbook p := sameResult_congr (passed.kept p new) rfl
  rw [step.mem_due, compared]
  refine or_congr_right ⟨fun ⟨_, news, touched⟩ =>
    ⟨(passed.later_of_touched straight split touched).1, news⟩, ?_⟩
  rintro ⟨reads, news⟩
  have other : q ≠ p := fun same => later (by simp [same])
  refine ⟨passed.mem_pending_erase.mpr ⟨listed, later⟩, news, other, ?_, p,
    List.mem_singleton_self p, ?_⟩
  · exact (passed.sources.isFormula q).trans
      (isFormula_of_mem_vertices (w.orders_plan.inside q listed))
  · show q ∈ r.workbook.dependencies.readersOf p
    rw [passed.sources.dependencies]
    exact straight.indexed.mem_readersOf.mpr reads

/-- The turn of a formula that is due and comes to a single value. -/
theorem evaluate (straight : w.Straight) (passed : w.Passed done entries r)
    (split : w.plan.order = done ++ p :: after) (due : p ∈ r.due) {value : Value}
    {format : Option String} (single : (r.workbook.compute p).outcome = .single value format) :
    w.Passed (done ++ [p]) (⟨p, (r.workbook.compute p).calls⟩ :: entries)
      ((r.begin p).evaluate p) := by
  have ordered : p ∈ w.plan.order := by simp [split]
  have fresh := not_mem_of_split split
  have prompted : w.Prompted entries r.workbook p := (passed.due p ordered fresh).mp due
  have new : p ∉ evaluated entries := fun listed => fresh ((passed.mem_evaluated p).mp listed).1
  have formula : r.workbook.isFormula p = true := by
    rw [passed.sources.isFormula]
    exact isFormula_of_mem_vertices (w.orders_plan.inside p ordered)
  have published : (r.begin p).evaluate p = ((r.begin p).note p).publish p (.single value format) :=
    congrArg (((r.begin p).note p).publish p) single
  have step := Round.publishes_single (r := (r.begin p).note p) passed.spills formula value format
  have journal :=
    Round.journal_publish_single (r := (r.begin p).note p) passed.spills formula value format
  rw [← published] at step journal
  generalize (r.begin p).evaluate p = r' at step journal
  have noting : SameSources r.workbook ((r.begin p).note p).workbook := .of_results ..
  have others : ∀ q, q ≠ p → r'.workbook.result? q = r.workbook.result? q := fun q other => by
    rw [step.result, if_neg other]
    rfl
  have prompts : ∀ q, w.Prompted (⟨p, (r.workbook.compute p).calls⟩ :: entries) r'.workbook q ↔
      w.Prompted entries r.workbook q ∨ w.Reads q p ∧ ¬ w.SameResult r'.workbook p :=
    fun q => prompted_cons new others
  refine ⟨passed.sources.trans (noting.trans step.sources), step.spills.trans passed.spills,
    passed.unmarked_of_publishes straight split step, fun q => ?_,
    journal.trans (congrArg (_ :: ·) passed.journal), List.nodup_cons.mpr ⟨new, passed.once⟩,
    fun q => ?_, fun q listed later => ?_, fun q unasked => ?_⟩
  · rw [step.pending]
    exact passed.mem_pending_erase
  · show q ∈ p :: evaluated entries ↔ _
    rw [prompts, List.mem_cons, passed.mem_evaluated, List.mem_append, List.mem_singleton]
    constructor
    · rintro (rfl | ⟨earlier, before⟩)
      · exact ⟨.inr rfl, .inl prompted⟩
      · exact ⟨.inl earlier, .inl before⟩
    · -- What has had its turn does not read the formula, so its cause is an earlier one.
      rintro ⟨earlier | last, before | ⟨reads, _⟩⟩
      · exact .inr ⟨earlier, before⟩
      · exact absurd reads
          (not_reads_of_bare straight.spills split (List.mem_append_left _ earlier))
      · exact .inl last
      · exact .inl last
  · rw [passed.mem_due_of_publishes straight split new step listed later, prompts,
      passed.due q listed fun ended => later (List.mem_append_left _ ended)]
  · have outside := not_or.mp fun listed => unasked (List.mem_cons.mpr listed)
    rw [others q outside.1, passed.kept q outside.2]

end Evaluation

/-- The turn of any formula. -/
theorem turn (straight : w.Straight) (passed : w.Passed done entries r)
    (split : w.plan.order = done ++ p :: after)
    (single : p ∈ r.due → ∃ value format, (r.workbook.compute p).outcome = .single value format) :
    ∃ entries', w.Passed (done ++ [p]) entries' (r.turn p) := by
  unfold Round.turn
  dsimp only
  have due : (r.begin p).due = r.due := rfl
  rw [due]
  by_cases waits : p ∈ r.due
  · rw [if_pos (Std.ExtTreeSet.contains_iff_mem.mpr waits)]
    obtain ⟨value, format, outcome⟩ := single waits
    exact ⟨_, passed.evaluate straight split waits outcome⟩
  · rw [if_neg fun found => waits (Std.ExtTreeSet.contains_iff_mem.mp found)]
    exact ⟨entries, passed.skip split waits⟩

end Passed

/-- The turns that some of the formulas have had first. -/
theorem Straight.passed_turns (straight : w.Straight) (singles : w.EvaluatesSingles)
    (done after : List Position) (split : w.plan.order = done ++ after) :
    ∃ entries, w.Passed done entries (done.foldl Round.turn w.start) := by
  induction done using List.reverseRecOn generalizing after with
  | nil => exact ⟨[], straight.passed_start⟩
  | append_singleton done p ih =>
    rw [List.append_assoc, List.singleton_append] at split
    obtain ⟨entries, passed⟩ := ih (p :: after) split
    rw [List.foldl_append, List.foldl_cons, List.foldl_nil]
    refine passed.turn straight split fun due => ?_
    rw [← straight.opening_eq] at due ⊢
    exact singles done p after split due

/-- One round leaves nothing marked. It has evaluated, once each, the formulas that were due or read
one that it has evaluated and that keeps another result now. -/
theorem Straight.passed_recalculateOnce (straight : w.Straight) (singles : w.EvaluatesSingles) :
    ∃ entries, w.recalculateOnce.Unmarked ∧ w.recalculateOnce.journal = entries ++ w.journal ∧
      (evaluated entries).Nodup ∧
      ∀ p, p ∈ evaluated entries ↔
        w.isFormula p = true ∧ w.Prompted entries w.recalculateOnce p := by
  obtain ⟨entries, passed⟩ := straight.passed_turns singles w.plan.order [] (List.append_nil _).symm
  rw [straight.recalculateOnce_eq]
  refine ⟨entries, passed.unmarked, passed.journal, passed.once, fun p => ?_⟩
  rw [passed.mem_evaluated]
  refine and_congr_left fun prompted => ⟨fun ordered =>
    isFormula_of_mem_vertices (w.orders_plan.inside p ordered), fun formula => ?_⟩
  rcases prompted with due | ⟨u, listed, reads, _⟩
  · exact straight.mem_order_iff.mpr (mem_vertices_of_mem_due due)
  · exact straight.mem_order_of_reads ((passed.mem_evaluated u).mp listed).1 reads formula

/-! ### The rounds of a recalculation -/

/-- A recalculation has no other round than its first if that leaves nothing marked. -/
theorem eq_of_mem_roundsWithin {limit : Nat} {v : Workbook} (once : w.recalculateOnce.Unmarked)
    (starts : v ∈ w.roundsWithin limit) : v = w ∧ (w.roundsWithin limit).length = 1 := by
  cases limit with
  | zero => contradiction
  | succ limit =>
    have ended : w.recalculateOnce.roundsWithin limit = [] := by
      cases limit with
      | zero => rfl
      | succ limit =>
        refine if_pos ?_
        simp [once.1, once.2]
    unfold roundsWithin at starts ⊢
    split at starts
    · contradiction
    · rename_i busy
      rw [ended] at starts ⊢
      rw [if_neg busy]
      exact ⟨List.mem_singleton.mp starts, rfl⟩

end Workbook

end Spreadsheet
