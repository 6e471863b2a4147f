import Spreadsheet.Proofs.Workbook.ShownValues

/-!
# Rounds that repeat what is shown

When a formula is evaluated again and comes to what it shows already, apart from formats, publishing it
changes nothing but formats, and only formulas that read its output are told. So a recalculation changes
nothing but formats if all that it may evaluate shows what it comes to, formulas on cycles have their
error, and no array is blocked by the array of another formula that may be evaluated: such a zone would be
taken from it as long as its turn is still to come.
-/
namespace Spreadsheet

namespace Workbook

variable {w w' : Workbook} {p q : Position}

/-- The formula at a position reads the output of another one: its cell, or a position of its array. -/
def Follows (w : Workbook) (p q : Position) : Prop :=
  ∃ u, (u = p ∨ ∃ zone, w.spills.activeZone? p = some zone ∧ zone.contains u = true) ∧ w.Reads q u

/-- The anchor whose zone is in the way of the array that a formula comes to. -/
def rival? (w : Workbook) (p : Position) : Outcome → Option Position
  | .single _ _ => none
  | .array values _ =>
    match w.claim p values.extent.1 values.extent.2 with
    | .error (.spill _ owner) => some owner
    | _ => none

/-- Every position of a zone leads to its anchor. -/
structure Owned (w : Workbook) : Prop where
  sound : w.spills.Sound
  owned : ∀ a zone q, w.spills.activeZone? a = some zone → zone.contains q = true →
    w.spills.owner? q = some a

/-- Where arrays are arranged, positions of zones lead to their anchors. -/
theorem Arranged.owned (arranged : w.Arranged fun _ => False) : w.Owned where
  sound := arranged.exclusive.toSound
  owned _ _ _ active inside := arranged.exclusive.owner?_eq id active inside

namespace SameShown

/-- Arrays that are the same, marks and records of evaluations do not count. -/
theorem of_results {spills : Spills} (arrays : w.spills.SameArrays spills)
    (dirty changed : PositionSet) (journal : List JournalEntry) :
    SameShown w
      { w with spills := spills, dirty := dirty, changed := changed, journal := journal } where
  toSameSheets := ⟨rfl, rfl, rfl, rfl, fun _ => rfl⟩
  dependencies := rfl
  content _ := rfl
  arrays := arrays

/-- The same formulas follow. -/
theorem follows_iff (same : SameShown w w') : w'.Follows p q ↔ w.Follows p q := by
  unfold Follows
  simp only [same.arrays.activeZone?, same.reads_iff]

/-- The same anchor is in the way. -/
theorem rival? (same : SameShown w w') (outcome : Outcome) :
    w'.rival? p outcome = w.rival? p outcome := by
  cases outcome with
  | single value format => rfl
  | array values formats =>
    unfold Workbook.rival?
    dsimp only
    rw [same.claim]

/-- Positions of zones lead to their anchors. -/
theorem owned (same : SameShown w w') (owned : w.Owned) : w'.Owned where
  sound :=
    { covered := fun q a leads => by
        rw [same.arrays.owner] at leads
        rw [same.arrays.activeZone?]
        exact owned.sound.covered q a leads
      anchored := fun a zone active => by
        rw [same.arrays.activeZone?] at active
        exact owned.sound.anchored a zone active }
  owned a zone q active inside := by
    rw [same.arrays.activeZone?] at active
    rw [same.arrays.owner]
    exact owned.owned a zone q active inside

end SameShown

/-- Which anchor is in the way of an outcome does not depend on formats. -/
theorem rival?_congr {outcome outcome' : Outcome} (same : outcome'.plain = outcome.plain) :
    w.rival? p outcome' = w.rival? p outcome := by
  have bare : ∀ outcome : Outcome, w.rival? p outcome = w.rival? p outcome.plain := fun outcome => by
    cases outcome with
    | single value format => rfl
    | array values formats => rfl
  rw [bare, same, ← bare]

end Workbook

namespace Round

variable {r r' r'' : Round} {p q : Position}

/-- Keeping a value that a formula has already changes its format only. -/
theorem sameShown_store {value : Value} (stored : r.workbook.stored? p = some value)
    (format : Option String) : r.workbook.SameShown (r.store p value format).workbook := by
  refine ⟨.of_updateCell r.workbook p _, rfl, fun q => ?_, .refl _⟩
  unfold store
  rw [Workbook.content_updateCell]
  split
  · rename_i here
    rw [here.1, Cell.content_mapFormula]
    obtain ⟨f, found, same⟩ := Option.map_eq_some_iff.mp stored
    rw [Workbook.content_of_formula? found, ← same]
    rfl
  · rfl

/-- A claim of a round is one of its workbook. -/
theorem claim_eq (r : Round) (anchor : Position) (rows columns : Nat) :
    r.claim anchor rows columns = r.workbook.claim anchor rows columns := by
  unfold claim Workbook.claim Workbook.extent?
  cases r.workbook.sheet? anchor.sheet with
  | none => rfl
  | some s => rfl

/-- Nothing is taken out of the way of an array unless it is the zone of a formula whose turn is still to
come. -/
theorem clearWay_eq {rows columns : Nat}
    (ended : ∀ found owner, r.workbook.claim p rows columns = .error (.spill found owner) →
      owner ∉ r.pending) (fuel : Nat) :
    clearWay p rows columns fuel r = (r, r.workbook.claim p rows columns) := by
  cases fuel with
  | zero =>
    unfold clearWay
    rw [claim_eq]
  | succ fuel =>
    unfold clearWay
    rw [claim_eq]
    split
    · rename_i found owner met
      have waits : ¬ r.pending.contains owner = true := fun waits =>
        ended found owner met (Std.ExtTreeSet.contains_iff_mem.mp waits)
      rw [if_neg waits, met]
    · rfl

/-- Settling what a formula shows already leaves all arrays, and its value is the one it has. -/
theorem settle_of_shows {outcome : Outcome} (owned : r.workbook.Owned)
    (shows : r.workbook.Shows p outcome)
    (ended : ∀ owner, r.workbook.rival? p outcome = some owner → owner ∉ r.pending) :
    ∃ spills value format, r.settle p outcome = (r.withSpills spills, value, format) ∧
      r.workbook.spills.SameArrays spills ∧ r.workbook.stored? p = some value := by
  cases outcome with
  | single value format =>
    obtain ⟨none, stored⟩ := shows
    exact ⟨_, value, format, rfl, Spills.sameArrays_release none, stored⟩
  | array values formats =>
    have way : clearWay p values.extent.1 values.extent.2 r.workbook.spills.activeCount r =
        (r, r.workbook.claim p values.extent.1 values.extent.2) := by
      refine clearWay_eq (fun found owner met => ended owner ?_) _
      unfold Workbook.rival?
      dsimp only
      rw [met]
    unfold Workbook.Shows at shows
    unfold settle place
    dsimp only at shows ⊢
    rw [way]
    cases claimed : r.workbook.claim p values.extent.1 values.extent.2 with
    | ok zone =>
      rw [claimed] at shows
      obtain ⟨array, stored⟩ := shows
      have active : r.workbook.spills.activeZone? p = some zone := by
        rw [Spills.activeZone?_eq, array]
        rfl
      exact ⟨_, _, _, rfl, Spills.sameArrays_claim owned.sound array
        (fun q inside => owned.owned p zone q active inside) formats, stored⟩
    | error collision =>
      rw [claimed] at shows
      obtain ⟨none, stored⟩ := shows
      exact ⟨_, _, _, rfl, Spills.sameArrays_block none _, stored⟩

/-- A step of a round changes nothing but formats, and tells nobody but formulas that follow one
formula. -/
structure Repeats (r : Round) (p : Position) (r' : Round) : Prop where
  shown : r.workbook.SameShown r'.workbook
  changed : r'.workbook.changed = r.workbook.changed
  pending : r'.pending = r.pending
  dirty : ∀ q ∈ r'.workbook.dirty, q ∈ r.workbook.dirty ∨ r.workbook.Follows p q
  due : ∀ q ∈ r'.due, q ∈ r.due ∨ r.workbook.Follows p q

/-- Announcing that a formula keeps its zone tells nobody but formulas that read its cell or its zone. -/
theorem marks_announce_kept (r : Round) (p : Position) (zone? : Option Zone) :
    ∃ marked, r.Marks marked (r.announce p zone? zone?) ∧ ∀ q, marked q →
      ∃ u, (u = p ∨ ∃ zone, zone? = some zone ∧ zone.contains u = true) ∧
        q ∈ r.workbook.dependencies.readersOf u := by
  refine ⟨_, marks_touch_wake r p _ _, fun q marked => ?_⟩
  rcases marked with ⟨_, _, u, listed, reads⟩ | ⟨_, u, given, _⟩
  · refine ⟨u, ?_, reads⟩
    have output := mem_sortedPositions.mp listed
    rcases List.mem_cons.mp output with here | covered
    · exact .inl here
    · rw [List.mem_append, or_self] at covered
      cases zone? with
      | none => contradiction
      | some zone => exact .inr ⟨zone, rfl, Zone.mem_positions.mp covered⟩
  · -- A position that the zone gives up would lie in it and outside of it.
    obtain ⟨covered, outside⟩ := List.mem_filter.mp given
    cases zone? with
    | none => contradiction
    | some zone =>
      have inside := Zone.mem_positions.mp covered
      rw [Option.any_some, inside] at outside
      contradiction

/-- Publishing what a formula shows already changes nothing but formats, and tells nobody but formulas
that follow it. -/
theorem repeats_publish {outcome : Outcome} (indexed : r.workbook.dependencies.Indexed)
    (owned : r.workbook.Owned) (shows : r.workbook.Shows p outcome)
    (ended : ∀ owner, r.workbook.rival? p outcome = some owner → owner ∉ r.pending) :
    r.Repeats p (r.publish p outcome) := by
  obtain ⟨spills, value, format, settled, arrays, stored⟩ := settle_of_shows owned shows ended
  obtain ⟨f, found, _⟩ := Option.map_eq_some_iff.mp stored
  have placed : r.workbook.SameShown (r.withSpills spills).workbook := .of_results arrays _ _ _
  have kept : r.workbook.SameShown ((r.withSpills spills).store p value format).workbook :=
    placed.trans (sameShown_store ((placed.stored? p).trans stored) format)
  have zone : (r.withSpills spills).workbook.spills.activeZone? p =
      r.workbook.spills.activeZone? p := arrays.activeZone? p
  unfold publish
  rw [found]
  dsimp only
  rw [settled]
  dsimp only
  split
  · exact ⟨kept, rfl, rfl, fun q told => .inl told, fun q told => .inl told⟩
  · rw [zone]
    obtain ⟨marked, marks, told⟩ := marks_announce_kept ((r.withSpills spills).store p value format) p
      (r.workbook.spills.activeZone? p)
    have follows : ∀ q, marked q → r.workbook.Follows p q := fun q given => by
      obtain ⟨u, output, reads⟩ := told q given
      exact ⟨u, output, indexed.mem_readersOf.mp reads⟩
    refine ⟨?_, ?_, marks.pending, fun q given => ?_, fun q given => ?_⟩
    · rw [marks.workbook]
      exact kept.trans (.of_results (.refl _) _ _ _)
    · rw [marks.workbook]
      rfl
    · exact ((marks.mem_dirty q).mp given).imp id fun fresh => follows q fresh.2
    · exact ((marks.mem_due q).mp given).imp id fun fresh => follows q fresh.2

end Round

/-! ### Recalculations -/

namespace Workbook

variable {w w' : Workbook} {p q : Position} {r : Round} {downstream : Position → Prop}

/-- A formula among those that may be evaluated will show the same when it is: if it is on a cycle it
shows the error of a cycle, and else what it comes to; no other of those formulas has the zone in the way
of its array; and if it is a transposition, the format of its argument goes with the value of the argument,
whatever formats cells show. -/
structure Lasting (w : Workbook) (downstream : Position → Prop) (p : Position) : Prop where
  circular : w.OnCycle p → w.Shows p .circular
  shows : ¬ w.OnCycle p → w.Shows p (w.compute p).outcome
  alone : ∀ owner, w.rival? p (w.compute p).outcome = some owner → ¬ downstream owner
  transposes : w.TransposesSuitably p

/-- Only functions of the library are known, arrays and dependencies are in order, and the formulas that
may be evaluated are followed by such formulas only and will show the same. -/
structure Still (w : Workbook) (downstream : Position → Prop) : Prop where
  builtin : w.functions = .empty
  indexed : w.dependencies.Indexed
  arranged : w.Arranged fun _ => False
  closed : ∀ p q, downstream p → w.Follows p q → downstream q
  lasting : ∀ p, downstream p → w.isFormula p = true → w.Lasting downstream p

/-- At a moment of a round only formats have changed, and what is marked may be evaluated. -/
structure StillDuring (w : Workbook) (downstream : Position → Prop) (r : Round) : Prop where
  shown : w.SameShown r.workbook
  changed : r.workbook.changed = ∅
  dirty : ∀ q ∈ r.workbook.dirty, downstream q
  due : ∀ q ∈ r.due, downstream q
  pending : ∀ q ∈ r.pending, downstream q

namespace StillDuring

/-- A step that changes nothing but formats and tells nobody but followers. -/
theorem repeats (during : w.StillDuring downstream r) (still : w.Still downstream)
    {r' : Round} (repeats : r.Repeats p r') (member : downstream p) : w.StillDuring downstream r' := by
  have follows : ∀ q, r.workbook.Follows p q → downstream q := fun q next =>
    still.closed p q member (during.shown.follows_iff.mp next)
  refine ⟨during.shown.trans repeats.shown, repeats.changed.trans during.changed,
    fun q marked => ?_, fun q marked => ?_, fun q waits => ?_⟩
  · exact (repeats.dirty q marked).elim (during.dirty q) (follows q)
  · exact (repeats.due q marked).elim (during.due q) (follows q)
  · rw [repeats.pending] at waits
    exact during.pending q waits

/-- Publishing what a formula shows. -/
theorem publish (during : w.StillDuring downstream r) (still : w.Still downstream)
    (member : downstream p) {outcome : Outcome} (shows : w.Shows p outcome)
    (alone : ∀ owner, w.rival? p outcome = some owner → ¬ downstream owner) :
    w.StillDuring downstream (r.publish p outcome) := by
  have indexed : r.workbook.dependencies.Indexed := by
    rw [during.shown.dependencies]
    exact still.indexed
  have owned : r.workbook.Owned := during.shown.owned still.arranged.owned
  have ended : ∀ owner, r.workbook.rival? p outcome = some owner → owner ∉ r.pending := by
    intro owner met waits
    rw [during.shown.rival?] at met
    exact alone owner met (during.pending owner waits)
  exact during.repeats still
    (Round.repeats_publish indexed owned ((during.shown.shows_iff outcome).mpr shows) ended) member

/-- The turn of a formula that is on no cycle. -/
theorem turn (during : w.StillDuring downstream r) (still : w.Still downstream)
    (member : downstream p) (formula : w.isFormula p = true) (free : ¬ w.OnCycle p) :
    w.StillDuring downstream (r.turn p) := by
  have lasting := still.lasting p member formula
  have begun : w.StillDuring downstream (r.begin p) :=
    ⟨during.shown, during.changed, during.dirty, during.due, fun q waits =>
      during.pending q (PositionSet.mem_erase.mp waits).2⟩
  unfold Round.turn
  dsimp only
  split
  · -- What it comes to now differs from what it came to at the start in formats only.
    have same : ((r.begin p).workbook.compute p).outcome.plain = (w.compute p).outcome.plain :=
      begun.shown.plain_compute still.builtin lasting.transposes
    have noted : w.StillDuring downstream ((r.begin p).note p) :=
      ⟨begun.shown.trans (.of_results (.refl _) _ _ _), begun.changed, begun.dirty, begun.due,
        begun.pending⟩
    rw [Round.evaluate_eq]
    refine noted.publish still member ((shows_congr same).mpr (lasting.shows free)) ?_
    intro owner met
    rw [rival?_congr same] at met
    exact lasting.alone owner met
  · exact begun

/-- The turns of formulas that are on no cycle. -/
theorem turns (still : w.Still downstream) {order : List Position}
    (members : ∀ p ∈ order, downstream p ∧ w.isFormula p = true ∧ ¬ w.OnCycle p)
    (during : w.StillDuring downstream r) : w.StillDuring downstream (order.foldl Round.turn r) :=
  List.foldlRecOn order _ (motive := w.StillDuring downstream) during fun _ before p listed => by
    obtain ⟨member, formula, free⟩ := members p listed
    exact before.turn still member formula free

/-- Publishing that formulas are on cycles. -/
theorem stamps (still : w.Still downstream) {cyclic : List Position}
    (members : ∀ p ∈ cyclic, downstream p ∧ w.OnCycle p) (during : w.StillDuring downstream r) :
    w.StillDuring downstream (cyclic.foldl (fun r p => r.publish p .circular) r) :=
  List.foldlRecOn cyclic _ (motive := w.StillDuring downstream) during fun _ before p listed => by
    obtain ⟨member, cycle⟩ := members p listed
    have lasting := still.lasting p member cycle.isFormula
    exact before.publish still member (lasting.circular cycle) fun owner none => by contradiction

end StillDuring

/-- Where arrays are arranged, a formula that reads the cell of another one reads its output. -/
theorem Arranged.readsFirmly (arranged : w.Arranged fun _ => False) (formula : w.isFormula p = true)
    (reads : w.Reads q p) : Schedule.ReadsFirmly w.dependencies w.spills p q := by
  obtain ⟨zone, listed, inside⟩ := reads
  refine ⟨zone, listed, inside, fun _ => ?_, fun _ => ?_⟩
  · cases leads : w.spills.owner? p with
    | none => rfl
    | some a =>
      -- A zone that covers the formula would cover its content, so it is its own.
      obtain ⟨claimed, active, covers⟩ := arranged.exclusive.covered p a leads
      by_contra other
      exact arranged.exclusive.clear a claimed p active covers (fun same => other same.symm)
        (hasContent_of_isFormula formula)
  · refine Zone.intersects_iff.mpr ⟨p, ?_, inside⟩
    unfold Schedule.outputZone
    cases active : w.spills.activeZone? p with
    | none => exact Zone.contains_single.mpr rfl
    | some claimed => exact arranged.exclusive.toSound.contains_anchor active

namespace Still

variable (still : w.Still downstream) (same : w.SameShown w')

include still same

/-- Dependencies are indexed where only formats differ. -/
theorem indexed_of_sameShown : w'.dependencies.Indexed := by
  rw [same.dependencies]
  exact still.indexed

/-- A round finds the formulas on cycles among those it schedules. -/
theorem mem_cyclic_iff : p ∈ w'.plan.cyclic ↔ p ∈ w'.vertices ∧ w.OnCycle p := by
  rw [mem_cyclic_plan_iff (still.indexed_of_sameShown same), same.onCycle_iff]
  intro u q formula reads
  rw [same.isFormula] at formula
  have firmly := still.arranged.readsFirmly formula (same.reads_iff.mp reads)
  unfold Schedule.ReadsFirmly Schedule.outputZone at firmly ⊢
  rwa [same.dependencies, same.arrays.owner, same.arrays.activeZone?]

/-- A round schedules formulas that may be evaluated, if those that are due may. -/
theorem of_mem_vertices (due : ∀ p ∈ w'.due, downstream p) (scheduled : p ∈ w'.vertices) :
    downstream p := by
  have indexed := still.indexed_of_sameShown same
  have closed := (List.mem_filter.mp scheduled).1
  rw [Schedule.mem_closure_iff indexed] at closed
  obtain ⟨seed, given, path⟩ := closed
  clear scheduled
  induction path with
  | refl => exact due seed (Std.ExtTreeSet.mem_toList.mp given)
  | @tail u q _ step before =>
    obtain ⟨_, reads⟩ := (Schedule.mem_directReaders indexed).mp step
    exact still.closed u q before ⟨u, .inl rfl, same.reads_iff.mp reads⟩

/-- A round changes nothing but formats, and what it leaves marked may be evaluated. -/
theorem recalculateOnce (due : ∀ p ∈ w'.due, downstream p) :
    w.SameShown w'.recalculateOnce ∧ ∀ p ∈ w'.recalculateOnce.due, downstream p := by
  have unmarked : w.SameShown w'.unmarked := same.trans (.of_results (.refl _) _ _ _)
  unfold Workbook.recalculateOnce
  split
  · exact ⟨unmarked, fun p marked => absurd marked (not_mem_due_of_unmarked rfl rfl)⟩
  · have scheduled : ∀ p ∈ w'.vertices, downstream p := fun p listed =>
      still.of_mem_vertices same due listed
    have start : w.StillDuring downstream
        ⟨w'.unmarked, .ofList w'.plan.order compare, w'.due⟩ := by
      refine ⟨unmarked, rfl, fun q marked => ?_, due, fun q waits => ?_⟩
      · exact absurd marked Std.ExtTreeSet.not_mem_empty
      · exact scheduled q (w'.orders_plan.inside q (PositionSet.mem_ofList.mp waits))
    have stamped : w.StillDuring downstream (w'.opening w'.plan) := by
      refine start.stamps still fun p cyclic => ?_
      obtain ⟨listed, cycle⟩ := (still.mem_cyclic_iff same).mp cyclic
      exact ⟨scheduled p listed, cycle⟩
    have members : ∀ p ∈ w'.plan.order, downstream p ∧ w.isFormula p = true ∧ ¬ w.OnCycle p := by
      intro p ordered
      have listed := w'.orders_plan.inside p ordered
      have formula := isFormula_of_mem_vertices listed
      rw [same.isFormula] at formula
      refine ⟨scheduled p listed, formula, fun cycle => ?_⟩
      exact w'.orders_plan.apart p ordered ((still.mem_cyclic_iff same).mpr ⟨listed, cycle⟩)
    have ended := stamped.turns still members
    refine ⟨ended.shown, fun p marked => ?_⟩
    obtain ⟨dirty | ⟨u, news, _⟩, _⟩ := mem_due.mp marked
    · exact ended.dirty p dirty
    · rw [ended.changed] at news
      exact absurd news Std.ExtTreeSet.not_mem_empty

/-- Rounds change nothing but formats. -/
theorem recalculateWithin (rounds : Nat) (due : ∀ p ∈ w'.due, downstream p) :
    w.SameShown (w'.recalculateWithin rounds) := by
  induction rounds generalizing w' with
  | zero => exact same.trans (.of_results (.refl _) _ _ _)
  | succ rounds ih =>
    unfold Workbook.recalculateWithin
    split
    · exact same
    · obtain ⟨shown, left⟩ := still.recalculateOnce same due
      exact ih shown left

/-- A recalculation changes nothing but formats. -/
theorem recalculate (due : ∀ p ∈ w'.due, downstream p) : w.SameShown w'.recalculate :=
  still.recalculateWithin same _ due

end Still

end Workbook

end Spreadsheet
