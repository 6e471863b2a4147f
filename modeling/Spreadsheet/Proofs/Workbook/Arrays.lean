import Spreadsheet.Proofs.Workbook.Plans
import Spreadsheet.Proofs.Workbook.Rounds

/-!
# Spilled arrays in a workbook

The arrays of a workbook are arranged when owners and records are in step, only formulas have
records, and every claimed zone lies on its sheet and holds no content but that of its anchor. A
formula may be typed into the zone of another anchor; that anchor is exempt until it is evaluated
again. Every step of a round keeps arrays arranged, and after a round no anchor is exempt.
-/
namespace Spreadsheet

namespace Workbook

/-- The zone lies on its sheet. -/
def HasRoom (w : Workbook) (zone : Zone) : Prop :=
  ∃ rows columns, w.extent? zone.sheet = some (rows, columns) ∧ zone.bottom < rows ∧
    zone.right < columns

/-- Arrays are those of formulas, lie on their sheets and are exclusive, up to exempt anchors. -/
structure Arranged (w : Workbook) (exempt : Position → Prop) : Prop where
  exclusive : w.spills.Exclusive w.hasContent exempt
  formula : ∀ a, (w.spills.state? a).isSome = true → w.isFormula a = true
  room : ∀ a zone, w.spills.activeZone? a = some zone → w.HasRoom zone

namespace Arranged

variable {w w' : Workbook} {exempt exempt' : Position → Prop} {a : Position}

/-- An anchor with a zone is a formula. -/
theorem isFormula_of_active (arranged : w.Arranged exempt) {zone : Zone}
    (active : w.spills.activeZone? a = some zone) : w.isFormula a = true := by
  obtain ⟨values, formats, found⟩ := Spills.activeZone?_eq_some_iff.mp active
  exact arranged.formula a (by rw [found]; rfl)

/-- More anchors may be exempt, as far as they are formulas. -/
theorem mono (arranged : w.Arranged exempt)
    (weaker : ∀ b, w.isFormula b = true → exempt b → exempt' b) : w.Arranged exempt' where
  exclusive := arranged.exclusive.mono fun b active held => by
    obtain ⟨zone, found⟩ := Option.isSome_iff_exists.mp active
    exact weaker b (arranged.isFormula_of_active found) held
  formula := arranged.formula
  room := arranged.room

/-- Arrays stay arranged where sources and arrays stay. -/
theorem of_sources (arranged : w.Arranged exempt) (same : SameSources w w')
    (spills : w'.spills = w.spills) : w'.Arranged exempt where
  exclusive := by
    rw [spills, funext same.hasContent]
    exact arranged.exclusive
  formula b found := by
    rw [spills] at found
    rw [same.isFormula]
    exact arranged.formula b found
  room b zone active := by
    rw [spills] at active
    obtain ⟨rows, columns, extent, fits⟩ := arranged.room b zone active
    exact ⟨rows, columns, by rw [same.extent, extent], fits⟩

/-- A formula that has its array released is not exempt. -/
theorem release (arranged : w.Arranged exempt) (a : Position) :
    Arranged { w with spills := w.spills.release a } fun b => exempt b ∧ b ≠ a where
  exclusive := arranged.exclusive.release a
  formula b found := by
    rw [Spills.state?_release] at found
    split at found
    · contradiction
    · exact arranged.formula b found
  room b zone active := by
    rw [Spills.activeZone?_release] at active
    split at active
    · contradiction
    · exact arranged.room b zone active

/-- A formula whose claim fails is not exempt. -/
theorem block (arranged : w.Arranged exempt) (typed : w.isFormula a = true) (candidate : Zone) :
    Arranged { w with spills := w.spills.block a candidate } fun b => exempt b ∧ b ≠ a where
  exclusive := arranged.exclusive.block a candidate
  formula b found := by
    rw [Spills.state?_block] at found
    split at found
    · rename_i here
      rw [here]
      exact typed
    · exact arranged.formula b found
  room b zone active := by
    rw [Spills.activeZone?_block] at active
    split at active
    · contradiction
    · exact arranged.room b zone active

/-- A formula whose claim succeeds is not exempt. -/
theorem claim (arranged : w.Arranged exempt) (typed : w.isFormula a = true) {zone : Zone}
    {values : Grid Value} {formats : Grid (Option String)} {rows columns sheetRows sheetColumns : Nat}
    (extent : w.extent? a.sheet = some (sheetRows, sheetColumns))
    (free : w.spills.checkClaim a rows columns sheetRows sheetColumns w.hasContent = .ok zone) :
    Arranged { w with spills := w.spills.claim a zone values formats }
      fun b => exempt b ∧ b ≠ a where
  exclusive := arranged.exclusive.claim (hasContent_of_isFormula typed) free
  formula b found := by
    rw [Spills.state?_claim] at found
    split at found
    · rename_i here
      rw [here]
      exact typed
    · exact arranged.formula b found
  room b found active := by
    rw [Spills.activeZone?_claim] at active
    split at active
    · obtain rfl := Option.some.inj active
      obtain ⟨start, below, beside, _⟩ := Spills.checkClaim_eq_ok_iff.mp free
      exact ⟨sheetRows, sheetColumns, by rw [start]; exact extent, below, beside⟩
    · exact arranged.room b found active

end Arranged

end Workbook

namespace Round

variable {r r' : Round} {marked left : Position → Prop} {p : Position}

/-- The formulas that will be evaluated in a round: those that are due and whose turn is still to
come, and those that are left over. -/
def Exempt (r : Round) (left : Position → Prop) (p : Position) : Prop :=
  p ∈ r.due ∧ p ∈ r.pending ∨ left p

/-- Arrays stay arranged when formulas are marked. -/
theorem Marks.arranged {exempt : Position → Prop} (marks : r.Marks marked r')
    (arranged : r.workbook.Arranged exempt) : r'.workbook.Arranged exempt := by
  rw [marks.workbook]
  exact arranged.of_sources (.of_results ..) rfl

/-- A formula that will be evaluated still will be when formulas are marked. -/
theorem Marks.exempt (marks : r.Marks marked r') (held : r.Exempt left p) : r'.Exempt left p := by
  rcases held with ⟨due, waits⟩ | ended
  · exact .inl ⟨(marks.mem_due p).mpr (.inl due), by rw [marks.pending]; exact waits⟩
  · exact .inr ended

/-- Taking its zone from an anchor keeps arrays arranged. -/
theorem arranged_preempt (arranged : r.workbook.Arranged (r.Exempt left)) (owner : Position) :
    (r.preempt owner).workbook.Arranged ((r.preempt owner).Exempt left) := by
  have marks := marks_touch_wake (r.withSpills (r.workbook.spills.release owner)) owner
    (((r.workbook.spills.activeZone? owner).map Zone.positions).getD [])
    (((r.workbook.spills.activeZone? owner).map Zone.positions).getD [])
  refine (marks.arranged (arranged.release owner)).mono fun b _ held => ?_
  rcases marks.exempt (r := r.withSpills (r.workbook.spills.release owner)) held.1 with
    ⟨due, waits⟩ | ended
  · exact .inl ⟨PositionSet.mem_insert.mpr (.inr due), waits⟩
  · exact .inr ended

/-- Taking its zone from an anchor ends no turn. -/
theorem pending_preempt (r : Round) (owner : Position) : (r.preempt owner).pending = r.pending :=
  (marks_touch_wake (r.withSpills (r.workbook.spills.release owner)) owner _ _).pending

/-- Clearing the way for an array keeps arrays arranged. -/
theorem arranged_clearWay (anchor : Position) (rows columns fuel : Nat)
    (arranged : r.workbook.Arranged (r.Exempt left)) :
    (clearWay anchor rows columns fuel r).1.workbook.Arranged
      ((clearWay anchor rows columns fuel r).1.Exempt left) := by
  induction fuel generalizing r with
  | zero => exact arranged
  | succ fuel ih =>
    unfold clearWay
    split
    · split
      · exact ih (arranged_preempt arranged _)
      · exact arranged
    · exact arranged

/-- Clearing the way for an array ends no turn. -/
theorem pending_clearWay (anchor : Position) (rows columns fuel : Nat) (r : Round) :
    (clearWay anchor rows columns fuel r).1.pending = r.pending := by
  induction fuel generalizing r with
  | zero => rfl
  | succ fuel ih =>
    unfold clearWay
    split
    · split
      · rw [ih, pending_preempt]
      · rfl
    · rfl

/-- Clearing the way ends with the claim as things stand then. -/
theorem clearWay_result (anchor : Position) (rows columns fuel : Nat) (r : Round) :
    (clearWay anchor rows columns fuel r).2 =
      (clearWay anchor rows columns fuel r).1.claim anchor rows columns := by
  induction fuel generalizing r with
  | zero => rfl
  | succ fuel ih =>
    unfold clearWay
    split
    · rename_i met
      split
      · exact ih _
      · exact met.symm
    · rfl

/-- A claim is checked against the extent of the sheet of its anchor. -/
theorem claim_eq_ok {rows columns : Nat} {zone : Zone} (claimed : r.claim p rows columns = .ok zone) :
    ∃ sheetRows sheetColumns, r.workbook.extent? p.sheet = some (sheetRows, sheetColumns) ∧
      r.workbook.spills.checkClaim p rows columns sheetRows sheetColumns r.workbook.hasContent =
        .ok zone := by
  unfold claim at claimed
  dsimp only at claimed
  cases found : r.workbook.sheet? p.sheet with
  | none =>
    rw [found] at claimed
    obtain ⟨_, below, _⟩ := Spills.checkClaim_eq_ok_iff.mp claimed
    exact absurd below (Nat.not_lt_zero _)
  | some s =>
    rw [found] at claimed
    exact ⟨s.rows, s.columns, by simp [Workbook.extent?, found], claimed⟩

/-- Placing an array keeps arrays arranged, and its anchor is not exempt. -/
theorem arranged_place (arranged : r.workbook.Arranged (r.Exempt left))
    (typed : r.workbook.isFormula p = true) (values : Grid Value)
    (formats : Grid (Option String)) :
    (r.place p values formats).1.workbook.Arranged
      fun b => (r.place p values formats).1.Exempt left b ∧ b ≠ p := by
  have cleared := arranged_clearWay p values.extent.1 values.extent.2
    r.workbook.spills.activeCount arranged
  have result := clearWay_result p values.extent.1 values.extent.2 r.workbook.spills.activeCount r
  have formula := (sameSources_clearWay p values.extent.1 values.extent.2
    r.workbook.spills.activeCount r).isFormula p
  rw [typed] at formula
  unfold place
  dsimp only
  split
  · rename_i zone claimed
    rw [claimed] at result
    obtain ⟨sheetRows, sheetColumns, held, free⟩ := claim_eq_ok result.symm
    exact cleared.claim formula held free
  · exact cleared.block formula _

/-- Placing an array ends no turn. -/
theorem pending_place (r : Round) (p : Position) (values : Grid Value)
    (formats : Grid (Option String)) : (r.place p values formats).1.pending = r.pending := by
  unfold place
  dsimp only
  split
  · exact pending_clearWay ..
  · exact pending_clearWay ..

/-- Settling an outcome keeps arrays arranged, and its formula is not exempt. -/
theorem arranged_settle (arranged : r.workbook.Arranged (r.Exempt left))
    (typed : r.workbook.isFormula p = true) (outcome : Outcome) :
    (r.settle p outcome).1.workbook.Arranged
      fun b => (r.settle p outcome).1.Exempt left b ∧ b ≠ p := by
  cases outcome with
  | single value format => exact arranged.release p
  | array values formats => exact arranged_place arranged typed values formats

/-- Settling an outcome ends no turn. -/
theorem pending_settle (r : Round) (p : Position) (outcome : Outcome) :
    (r.settle p outcome).1.pending = r.pending := by
  cases outcome with
  | single value format => rfl
  | array values formats => exact r.pending_place p values formats

/-- Announcing a change marks readers and blocked anchors. -/
theorem marks_announce (r : Round) (p : Position) (oldZone newZone : Option Zone) :
    ∃ marked, r.Marks marked (r.announce p oldZone newZone) :=
  ⟨_, marks_touch_wake r p _ _⟩

/-- Publishing ends no turn. -/
theorem pending_publish (r : Round) (p : Position) (outcome : Outcome) :
    (r.publish p outcome).pending = r.pending := by
  unfold publish
  cases r.workbook.formula? p with
  | none => rfl
  | some f =>
    dsimp only
    split
    · exact r.pending_settle p outcome
    · obtain ⟨_, marks⟩ := marks_announce ((r.settle p outcome).1.store p (r.settle p outcome).2.1
        (r.settle p outcome).2.2) p (r.workbook.spills.activeZone? p)
        ((r.settle p outcome).1.workbook.spills.activeZone? p)
      exact marks.pending.trans (r.pending_settle p outcome)

/-- Publishing keeps arrays arranged, and its formula is not exempt. -/
theorem arranged_publish (arranged : r.workbook.Arranged (r.Exempt left)) (outcome : Outcome) :
    (r.publish p outcome).workbook.Arranged
      fun b => (r.publish p outcome).Exempt left b ∧ b ≠ p := by
  unfold publish
  cases found : r.workbook.formula? p with
  | none =>
    refine arranged.mono fun b formula held => ⟨held, fun here => ?_⟩
    rw [here, Workbook.isFormula, found] at formula
    contradiction
  | some f =>
    have typed : r.workbook.isFormula p = true := by
      unfold Workbook.isFormula
      rw [found]
      rfl
    have settled := arranged_settle arranged typed outcome
    have stored : ((r.settle p outcome).1.store p (r.settle p outcome).2.1
        (r.settle p outcome).2.2).workbook.Arranged
        fun b => (r.settle p outcome).1.Exempt left b ∧ b ≠ p :=
      settled.of_sources (sameSources_store _ _ _ _) rfl
    dsimp only
    split
    · exact stored
    · obtain ⟨_, marks⟩ := marks_announce ((r.settle p outcome).1.store p (r.settle p outcome).2.1
        (r.settle p outcome).2.2) p (r.workbook.spills.activeZone? p)
        ((r.settle p outcome).1.workbook.spills.activeZone? p)
      exact (marks.arranged stored).mono fun b _ held => ⟨marks.exempt held.1, held.2⟩

/-- Evaluating a formula keeps arrays arranged, and it is not exempt. -/
theorem arranged_evaluate (arranged : r.workbook.Arranged (r.Exempt left)) (p : Position) :
    (r.evaluate p).workbook.Arranged fun b => (r.evaluate p).Exempt left b ∧ b ≠ p := by
  have noted : (r.note p).workbook.Arranged ((r.note p).Exempt left) :=
    arranged.of_sources (r.sameSources_note p) rfl
  rw [evaluate_eq]
  exact arranged_publish noted _

/-- The turn of a formula is over once it has come. -/
theorem pending_turn (r : Round) (p : Position) : (r.turn p).pending = r.pending.erase p := by
  unfold turn
  dsimp only
  split
  · exact pending_publish ..
  · rfl

/-- A formula whose turn has come may be exempt until it is evaluated. -/
theorem arranged_begin (arranged : r.workbook.Arranged (r.Exempt fun _ => False)) (p : Position) :
    (r.begin p).workbook.Arranged ((r.begin p).Exempt (· = p)) := by
  refine arranged.mono fun b _ held => ?_
  rcases held with ⟨due, waits⟩ | never
  · by_cases here : b = p
    · exact .inr here
    · exact .inl ⟨due, PositionSet.mem_erase.mpr ⟨here, waits⟩⟩
  · exact never.elim

/-- The turn of a formula keeps arrays arranged. -/
theorem arranged_turn (arranged : r.workbook.Arranged (r.Exempt fun _ => False)) (p : Position) :
    (r.turn p).workbook.Arranged ((r.turn p).Exempt fun _ => False) := by
  unfold turn
  dsimp only
  split
  · refine (arranged_evaluate (arranged_begin arranged p) p).mono fun b _ held => ?_
    rcases held with ⟨waiting | here, other⟩
    · exact .inl waiting
    · exact absurd here other
  · rename_i idle
    refine arranged.mono fun b _ held => ?_
    rcases held with ⟨due, waits⟩ | never
    · refine .inl ⟨due, PositionSet.mem_erase.mpr ⟨fun here => idle ?_, waits⟩⟩
      rw [← here]
      exact Std.ExtTreeSet.contains_iff_mem.mpr due
    · exact never.elim

/-- Turns keep arrays arranged. -/
theorem arranged_turns (order : List Position)
    (arranged : r.workbook.Arranged (r.Exempt fun _ => False)) :
    (order.foldl turn r).workbook.Arranged ((order.foldl turn r).Exempt fun _ => False) :=
  List.foldlRecOn order _
    (motive := fun (r' : Round) => r'.workbook.Arranged (r'.Exempt fun _ => False)) arranged
    fun _ kept p _ => arranged_turn kept p

/-- What waits after some turns is what waited before, without them. -/
theorem mem_pending_turns (order : List Position) (r : Round) :
    p ∈ (order.foldl turn r).pending ↔ p ∈ r.pending ∧ p ∉ order := by
  induction order generalizing r with
  | nil => simp
  | cons q rest ih =>
    rw [List.foldl_cons, ih, pending_turn, PositionSet.mem_erase, List.mem_cons, not_or]
    constructor
    · rintro ⟨⟨other, waits⟩, later⟩
      exact ⟨waits, other, later⟩
    · rintro ⟨waits, other, later⟩
      exact ⟨⟨other, waits⟩, later⟩

/-- Publishing that formulas are on cycles keeps arrays arranged, and they are not exempt. -/
theorem arranged_cyclic (cyclic : List Position)
    (arranged : r.workbook.Arranged (r.Exempt (· ∈ cyclic))) :
    (cyclic.foldl (fun r p => r.publish p .circular) r).workbook.Arranged
      ((cyclic.foldl (fun r p => r.publish p .circular) r).Exempt fun _ => False) := by
  induction cyclic generalizing r with
  | nil => exact arranged.mono fun b _ held => held.imp id fun none => by contradiction
  | cons p rest ih =>
    refine ih ((arranged_publish (p := p) arranged .circular).mono fun b _ held => ?_)
    rcases held with ⟨waiting | listed, other⟩
    · exact .inl waiting
    · exact .inr ((List.mem_cons.mp listed).resolve_left other)

/-- Publishing that formulas are on cycles ends no turn. -/
theorem pending_cyclic (cyclic : List Position) (r : Round) :
    (cyclic.foldl (fun r p => r.publish p .circular) r).pending = r.pending :=
  List.foldlRecOn cyclic _ (motive := fun (r' : Round) => r'.pending = r.pending) rfl
    fun r' same p _ => (r'.pending_publish p .circular).trans same

end Round

namespace Workbook

variable {w : Workbook} {p : Position}

/-- A marked formula will be evaluated in the next round, or it is found on a cycle. -/
theorem waits_or_cyclic (formula : w.isFormula p = true) (dirty : p ∈ w.dirty) :
    p ∈ w.due ∧ p ∈ Std.ExtTreeSet.ofList w.plan.order compare ∨ p ∈ w.plan.cyclic := by
  have due : p ∈ w.due := mem_due.mpr ⟨.inl dirty, formula⟩
  rcases w.orders_plan.covers p (mem_vertices_of_mem_due due) with ordered | cyclic
  · exact .inl ⟨due, PositionSet.mem_ofList.mpr ordered⟩
  · exact .inr cyclic

/-- Before formulas on cycles get their error they are left over. -/
theorem arranged_unmarked (arranged : w.Arranged (· ∈ w.dirty)) :
    w.unmarked.Arranged (Round.Exempt ⟨w.unmarked, .ofList w.plan.order compare, w.due⟩
      (· ∈ w.plan.cyclic)) := by
  have unmarked : w.unmarked.Arranged (· ∈ w.dirty) :=
    arranged.of_sources w.sameSources_unmarked rfl
  exact unmarked.mono fun b formula dirty => waits_or_cyclic formula dirty

/-- The start of a round keeps arrays arranged. -/
theorem arranged_opening (arranged : w.Arranged (· ∈ w.dirty)) :
    (w.opening w.plan).workbook.Arranged ((w.opening w.plan).Exempt fun _ => False) :=
  Round.arranged_cyclic w.plan.cyclic (arranged_unmarked arranged)

/-- When a round is over no turn is left. -/
theorem not_mem_pending_round (w : Workbook) (p : Position) :
    p ∉ (w.plan.order.foldl Round.turn (w.opening w.plan)).pending := by
  rw [Round.mem_pending_turns]
  rintro ⟨waits, missing⟩
  unfold opening at waits
  rw [Round.pending_cyclic, PositionSet.mem_ofList] at waits
  exact missing waits

/-- Where nothing is due no formula is marked. -/
theorem not_mem_dirty_of_idle (idle : w.due.isEmpty = true) (formula : w.isFormula p = true) :
    p ∉ w.dirty := fun dirty => by
  have due : p ∈ w.due := mem_due.mpr ⟨.inl dirty, formula⟩
  rw [Std.ExtTreeSet.isEmpty_iff.mp idle] at due
  exact Std.ExtTreeSet.not_mem_empty due

/-- After a round no anchor is exempt. -/
theorem arranged_recalculateOnce (arranged : w.Arranged (· ∈ w.dirty)) :
    w.recalculateOnce.Arranged fun _ => False := by
  unfold recalculateOnce
  split
  · rename_i idle
    exact (arranged.mono fun b formula dirty => not_mem_dirty_of_idle idle formula dirty).of_sources
      w.sameSources_unmarked rfl
  · refine (Round.arranged_turns w.plan.order (arranged_opening arranged)).mono fun b _ held => ?_
    rcases held with ⟨_, waits⟩ | never
    · exact w.not_mem_pending_round b waits
    · exact never

/-- Further rounds keep arrays arranged with no anchor exempt. -/
theorem arranged_recalculateWithin (rounds : Nat) (arranged : w.Arranged fun _ => False) :
    (w.recalculateWithin rounds).Arranged fun _ => False := by
  induction rounds generalizing w with
  | zero =>
    exact arranged.of_sources w.sameSources_unmarked rfl
  | succ rounds ih =>
    unfold recalculateWithin
    split
    · exact arranged
    · exact ih (arranged_recalculateOnce (arranged.mono fun _ _ never => never.elim))

/-- After a recalculation no anchor is exempt, whether the rounds ran out or not. -/
theorem arranged_recalculate (arranged : w.Arranged (· ∈ w.dirty)) :
    w.recalculate.Arranged fun _ => False := by
  unfold recalculate recalculateWithin
  split
  · rename_i idle
    refine arranged.mono fun b _ dirty => ?_
    rw [Bool.and_eq_true] at idle
    rw [Std.ExtTreeSet.isEmpty_iff.mp idle.1] at dirty
    exact Std.ExtTreeSet.not_mem_empty dirty
  · exact arranged_recalculateWithin _ (arranged_recalculateOnce arranged)

end Workbook

end Spreadsheet
