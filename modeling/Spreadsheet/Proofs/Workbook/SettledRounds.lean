import Spreadsheet.Proofs.Workbook.SettledFormulas

/-!
# Who is told in a round

A formula is told when it is marked to be evaluated, in this round or the next. A step of a round
tells every formula that it disturbs: those that read a position which shows something else now, and
those whose blocked array may have room now. So a formula that has been evaluated is settled until it
is told again.
-/
namespace Spreadsheet

/-- A position lies in a zone that may be there if it is one of its positions. -/
theorem Zone.mem_getD_positions {zone? : Option Zone} {q : Position} :
    q ∈ (zone?.map positions).getD [] ↔ ∃ zone, zone? = some zone ∧ zone.contains q = true := by
  cases zone? with
  | none => simp
  | some zone => simp

namespace Round

variable {r r' r'' : Round} {p q owner : Position} {marked left : Position → Prop}

/-- A formula is marked to be evaluated: in this round if its turn is still to come, or in the
next. -/
def Told (r : Round) (p : Position) : Prop := p ∈ r.workbook.dirty ∨ p ∈ r.pending ∧ p ∈ r.due

/-- Marks tell the formulas that they mark. -/
theorem Marks.told_iff (marks : r.Marks marked r') : r'.Told p ↔ r.Told p ∨ marked p := by
  unfold Told
  rw [marks.mem_dirty, marks.mem_due, marks.pending]
  by_cases waits : p ∈ r.pending
  · simp [waits, or_assoc]
  · simp [waits]

/-- Whoever was told still is when a turn begins, except for the formula whose turn it is. -/
theorem told_begin (other : q ≠ p) (told : r.Told q) : (r.begin p).Told q :=
  told.imp id fun both => ⟨PositionSet.mem_erase.mpr ⟨other, both.1⟩, both.2⟩

/-- From one moment of a round to another results stay, every formula that was told is told, and so is
every formula that has been disturbed. -/
structure Tells (r r' : Round) : Prop where
  sources : SameSources r.workbook r'.workbook
  changed : r'.workbook.changed = r.workbook.changed
  pending : r'.pending = r.pending
  result : ∀ p, r'.workbook.result? p = r.workbook.result? p
  told : ∀ p, r.Told p → r'.Told p
  others : ∀ p, r.workbook.isFormula p = true →
    r'.Told p ∨ r.workbook.Undisturbed r'.workbook p

namespace Tells

/-- Where nothing is done nobody has to be told. -/
theorem refl (r : Round) : r.Tells r :=
  ⟨.refl _, rfl, rfl, fun _ => rfl, fun _ => id, fun p _ => .inr (.refl _ p)⟩

/-- Two steps that tell what they disturb do so together. -/
theorem trans (first : r.Tells r') (second : r'.Tells r'') : r.Tells r'' where
  sources := first.sources.trans second.sources
  changed := second.changed.trans first.changed
  pending := second.pending.trans first.pending
  result p := (second.result p).trans (first.result p)
  told p told := second.told p (first.told p told)
  others p formula := by
    rcases first.others p formula with told | still
    · exact .inl (second.told p told)
    · rw [← first.sources.isFormula] at formula
      exact (second.others p formula).imp id still.trans

end Tells

/-- Taking its zone from an anchor changes the arrays and marks. -/
theorem workbook_preempt (r : Round) (owner : Position) :
    (r.preempt owner).workbook = { r.workbook with
      spills := r.workbook.spills.release owner
      dirty := (r.preempt owner).workbook.dirty } :=
  (marks_touch_wake (r.withSpills (r.workbook.spills.release owner)) owner _ _).workbook

/-- Taking its zone from an anchor tells the readers of the zone and the anchors blocked around it. -/
theorem told_preempt (r : Round) (owner : Position)
    (given : r.Told p ∨
      Touched r.workbook owner (((r.workbook.spills.activeZone? owner).map Zone.positions).getD []) p ∨
      Woken (r.workbook.spills.release owner) owner
        (((r.workbook.spills.activeZone? owner).map Zone.positions).getD []) p) :
    (r.preempt owner).Told p := by
  have marks := marks_touch_wake (r.withSpills (r.workbook.spills.release owner)) owner
    (((r.workbook.spills.activeZone? owner).map Zone.positions).getD [])
    (((r.workbook.spills.activeZone? owner).map Zone.positions).getD [])
  rcases marks.told_iff.mpr given with dirty | ⟨pending, due⟩
  · exact .inl dirty
  · exact .inr ⟨pending, PositionSet.mem_insert.mpr (.inr due)⟩

/-- Taking its zone from an anchor whose turn is still to come tells the anchor, the readers of the
zone and the anchors blocked around it. -/
theorem tells_preempt (grounded : r.workbook.Grounded) (sound : r.workbook.spills.Sound)
    (waits : owner ∈ r.pending) : r.Tells (r.preempt owner) := by
  have workbook := r.workbook_preempt owner
  refine ⟨r.sameSources_preempt owner, ?_, r.pending_preempt owner, fun p => ?_,
    fun p given => r.told_preempt owner (.inl given), fun p formula => ?_⟩
  · rw [workbook]
  · rw [workbook]
    rfl
  by_cases here : p = owner
  · subst here
    exact .inl (.inr ⟨by rwa [pending_preempt], PositionSet.mem_insert.mpr (.inl rfl)⟩)
  refine or_iff_not_imp_left.mpr fun untold => ?_
  obtain ⟨untouched, asleep⟩ := not_or.mp fun given => untold (r.told_preempt owner (.inr given))
  refine Workbook.undisturbed_of_showSame grounded (r.sameSources_preempt owner) ?_ ?_
    (fun q _ => ?_) (fun q reads => ?_) fun zone b other q blocked foreign claimed within inside => ?_
  · rw [workbook]
    rfl
  · rw [workbook]
    exact (Spills.state?_release _ owner p).trans (if_neg here)
  · rw [workbook]
    rfl
  · rw [workbook]
    refine sound.showSame_release fun zone active => ?_
    rw [← Bool.not_eq_true]
    intro inside
    exact untouched ⟨here, formula, q, Zone.mem_getD_positions.mpr ⟨zone, active, inside⟩,
      grounded.current.mem_readersOf.mpr reads⟩
  · rw [workbook]
    have kept : b ≠ owner := by
      rintro rfl
      refine asleep ⟨here, q, Zone.mem_getD_positions.mpr ⟨other, claimed, within⟩, ?_⟩
      refine Spills.mem_blockedAround.mpr ⟨zone, ?_, inside⟩
      exact (Spills.state?_release _ b p).trans ((if_neg here).trans blocked)
    exact ⟨other, (Spills.activeZone?_release _ owner b).trans ((if_neg kept).trans claimed), within⟩

/-- Clearing the way for an array tells whom it disturbs. -/
theorem tells_clearWay (grounded : r.workbook.Grounded)
    (arranged : r.workbook.Arranged (r.Exempt left)) (anchor : Position) (rows columns fuel : Nat) :
    r.Tells (clearWay anchor rows columns fuel r).1 := by
  induction fuel generalizing r with
  | zero => exact .refl r
  | succ fuel ih =>
    unfold clearWay
    split
    · rename_i found owner _
      split
      · rename_i waits
        have step := tells_preempt grounded arranged.exclusive.toSound
          (Std.ExtTreeSet.contains_iff_mem.mp waits)
        exact step.trans (ih (grounded.of_sources step.sources) (arranged_preempt arranged owner))
      · exact .refl r
    · exact .refl r

/-- Clearing the way takes no array from a formula whose turn has come. -/
theorem state?_clearWay (ended : p ∉ r.pending) (anchor : Position) (rows columns fuel : Nat) :
    (clearWay anchor rows columns fuel r).1.workbook.spills.state? p =
      r.workbook.spills.state? p := by
  induction fuel generalizing r with
  | zero => rfl
  | succ fuel ih =>
    unfold clearWay
    split
    · rename_i found owner _
      split
      · rename_i waits
        rw [ih (by rwa [pending_preempt]), workbook_preempt, Spills.state?_release, if_neg]
        rintro rfl
        exact ended (Std.ExtTreeSet.contains_iff_mem.mp waits)
      · rfl
    · rfl

/-! ### Settling an outcome -/

/-- An array that cannot be claimed really is obstructed. -/
theorem obstructed_of_claim {rows columns : Nat} {collision : Collision}
    (sound : r.workbook.spills.Sound) (met : r.claim p rows columns = .error collision) :
    r.workbook.Obstructed p (.fromAnchor p rows columns) := by
  unfold claim at met
  dsimp only at met
  cases Spills.inTheWay_of_checkClaim met with
  | bounds outside =>
    refine .inl ?_
    rintro ⟨sheetRows, sheetColumns, extent, below, beside⟩
    obtain ⟨s, found, same⟩ := Option.map_eq_some_iff.mp extent
    obtain ⟨rfl, rfl⟩ := Prod.mk.inj same
    rw [Zone.sheet_fromAnchor] at found
    rw [found] at outside
    dsimp only at outside
    omega
  | content inside other filled => exact .inr ⟨_, inside, other, .inl filled⟩
  | spill inside other owned foreign =>
    obtain ⟨zone, active, within⟩ := sound.covered _ _ owned
    exact .inr ⟨_, inside, other, .inr ⟨_, zone, foreign, active, within⟩⟩

/-- What settling an outcome makes of the arrays once the way is clear, and the value and format
that the formula shows then. -/
inductive Settles (r : Round) (p : Position) : Outcome → Spills → Value → Option String → Prop where
  | single {value : Value} {format : Option String} :
    Settles r p (.single value format) (r.workbook.spills.release p) value format
  | spilled {values : Grid Value} {formats : Grid (Option String)} {rows columns : Nat} {zone : Zone}
    (free : r.workbook.spills.checkClaim p values.extent.1 values.extent.2 rows columns
      r.workbook.hasContent = .ok zone) :
    Settles r p (.array values formats) (r.workbook.spills.claim p zone values formats)
      (.array values) formats.first?.join
  | blocked {values : Grid Value} {formats : Grid (Option String)} {collision : Collision}
    (held : r.workbook.Obstructed p (.fromAnchor p values.extent.1 values.extent.2))
    (met : r.claim p values.extent.1 values.extent.2 = .error collision) :
    Settles r p (.array values formats)
      (r.workbook.spills.block p (.fromAnchor p values.extent.1 values.extent.2))
      (.error (.ofCollision collision values.extent.1 values.extent.2)) none

/-- The way has been cleared for an outcome, and the outcome is settled. -/
structure Settling (r : Round) (left : Position → Prop) (p : Position) (outcome : Outcome)
    (cleared : Round) (spills : Spills) (value : Value) (format : Option String) : Prop where
  way : ∃ rows columns fuel, cleared = (clearWay p rows columns fuel r).1
  tells : r.Tells cleared
  arranged : cleared.workbook.Arranged (cleared.Exempt left)
  state : cleared.workbook.spills.state? p = r.workbook.spills.state? p
  settles : cleared.Settles p outcome spills value format

/-- An outcome is settled after the way has been cleared. -/
theorem settle_eq (grounded : r.workbook.Grounded)
    (arranged : r.workbook.Arranged (r.Exempt left)) (ended : p ∉ r.pending) (outcome : Outcome) :
    ∃ cleared spills value format, r.Settling left p outcome cleared spills value format ∧
      r.settle p outcome = (cleared.withSpills spills, value, format) := by
  cases outcome with
  | single value format =>
    exact ⟨r, _, value, format, ⟨⟨0, 0, 0, rfl⟩, .refl r, arranged, rfl, .single⟩, rfl⟩
  | array values formats =>
    have tells := tells_clearWay grounded arranged p values.extent.1 values.extent.2
      r.workbook.spills.activeCount
    have arranged' := arranged_clearWay p values.extent.1 values.extent.2
      r.workbook.spills.activeCount arranged
    have result := clearWay_result p values.extent.1 values.extent.2 r.workbook.spills.activeCount r
    have state := state?_clearWay ended p values.extent.1 values.extent.2
      r.workbook.spills.activeCount
    unfold settle place
    dsimp only
    split
    · rename_i zone claimed
      rw [claimed] at result
      obtain ⟨rows, columns, _, free⟩ := claim_eq_ok result.symm
      exact ⟨_, _, _, _, ⟨⟨_, _, _, rfl⟩, tells, arranged', state, .spilled free⟩, rfl⟩
    · rename_i collision met
      rw [met] at result
      exact ⟨_, _, _, _, ⟨⟨_, _, _, rfl⟩, tells, arranged', state,
        .blocked (obstructed_of_claim arranged'.exclusive.toSound result.symm) result.symm⟩, rfl⟩

namespace Settles

variable {outcome : Outcome} {spills : Spills} {value : Value} {format : Option String}

/-- Settling an outcome leaves the arrays of other formulas. -/
theorem state? (settles : r.Settles p outcome spills value format) (other : q ≠ p) :
    spills.state? q = r.workbook.spills.state? q := by
  cases settles with
  | single => rw [Spills.state?_release, if_neg other]
  | spilled => rw [Spills.state?_claim, if_neg other]
  | blocked => rw [Spills.state?_block, if_neg other]

/-- Settling an outcome changes nothing outside the zone that is given up and the one that is
taken. -/
theorem showSame (settles : r.Settles p outcome spills value format)
    (sound : r.workbook.spills.Sound)
    (outside : ∀ zone, r.workbook.spills.activeZone? p = some zone → zone.contains q = false)
    (beyond : ∀ zone, spills.activeZone? p = some zone → zone.contains q = false) :
    r.workbook.spills.ShowSame spills q := by
  cases settles with
  | single => exact sound.showSame_release outside
  | spilled free =>
    obtain ⟨start, _⟩ := Spills.checkClaim_eq_ok_iff.mp free
    exact sound.showSame_claim (by rw [start]; rfl) outside
      (beyond _ (by rw [Spills.activeZone?_claim, if_pos rfl]))
  | blocked => exact sound.showSame_block _ outside

/-- Settling an outcome changes nothing at all if the formula ends up with the array it had. -/
theorem showSame_of_state (settles : r.Settles p outcome spills value format)
    (exclusive : r.workbook.spills.Exclusive r.workbook.hasContent (r.Exempt left))
    (state : spills.state? p = r.workbook.spills.state? p) (q : Position) :
    r.workbook.spills.ShowSame spills q := by
  have sound := exclusive.toSound
  by_cases spilled : ∃ zone, r.workbook.spills.activeZone? p = some zone
  · -- The zone is claimed once more, and its positions led to the formula all along.
    obtain ⟨zone, active⟩ := spilled
    have active' : spills.activeZone? p = some zone := by
      rw [Spills.activeZone?_congr state, active]
    refine .of_owner ?_ (fun a _ => ?_) ?_
    · cases settles with
      | single => simp [Spills.activeZone?_release] at active'
      | blocked => simp [Spills.activeZone?_block] at active'
      | @spilled values formats rows columns claimed free =>
        rw [Spills.activeZone?_claim, if_pos rfl] at active'
        obtain rfl := Option.some.inj active'
        obtain ⟨start, _, _, unobstructed⟩ := Spills.checkClaim_eq_ok_iff.mp free
        rw [sound.owner?_claim]
        by_cases inside : claimed.contains q = true
        · rw [if_pos inside]
          rcases exclusive.owned p claimed q active inside with owned | ⟨other, filled⟩
          · exact owned.symm
          · rw [(unobstructed q inside other).1] at filled
            contradiction
        · rw [if_neg inside, if_neg]
          intro owned
          obtain ⟨zone, found, within⟩ := sound.covered q p owned
          rw [active] at found
          exact inside (Option.some.inj found ▸ within)
    · by_cases here : a = p
      · rw [here, state]
      · exact settles.state? here
    · by_cases here : q = p
      · rw [here, Spills.activeZone?_congr state]
      · rw [Spills.activeZone?_congr (settles.state? here)]
  · refine settles.showSame sound (fun zone active => absurd ⟨zone, active⟩ spilled) fun zone active => ?_
    rw [Spills.activeZone?_congr state] at active
    exact absurd ⟨zone, active⟩ spilled

/-- An outcome is published once it is settled and its value and format are kept. -/
theorem published (settles : r.Settles p outcome spills value format) {w : Workbook}
    (same : SameSources r.workbook w) (kept : w.spills = spills)
    (result : w.result? p = some (.single value format)) : w.Published p outcome := by
  cases settles with
  | single => exact ⟨by rw [kept, Spills.state?_release, if_pos rfl], result⟩
  | spilled free =>
    obtain ⟨start, _⟩ := Spills.checkClaim_eq_ok_iff.mp free
    exact .inl ⟨by rw [kept, Spills.state?_claim, if_pos rfl, start], result⟩
  | blocked held _ =>
    refine .inr ⟨by rw [kept, Spills.state?_block, if_pos rfl], ?_, _, result⟩
    refine held.mono (same.extent _) (fun q _ filled => by rw [same.hasContent, filled])
      fun b other q foreign claimed within _ => ⟨other, ?_, within⟩
    rw [kept, Spills.activeZone?_block, if_neg foreign, claimed]

end Settles

/-! ### Publishing -/

/-- What publishing an outcome of a formula does: the outcome is published, all other formulas are
told or undisturbed, and the formula itself is told or comes to what it came to before, unless it
reads its own cell or a zone that it gives up or takes. -/
structure Delivers (r : Round) (p : Position) (outcome : Outcome) (r' : Round) : Prop where
  sources : SameSources r.workbook r'.workbook
  changed : r'.workbook.changed = r.workbook.changed
  pending : r'.pending = r.pending
  told : ∀ q, r.Told q → r'.Told q
  others : ∀ q, q ≠ p → r.workbook.isFormula q = true →
    r'.Told q ∨ r.workbook.Undisturbed r'.workbook q
  published : r'.workbook.Published p outcome
  own : r'.Told p ∨ r'.workbook.compute p = r.workbook.compute p ∨
    ∃ q, r.workbook.Reads p q ∧ (q = p ∨ ∃ zone, zone.contains q = true ∧
      (r.workbook.spills.activeZone? p = some zone ∨ r'.workbook.spills.activeZone? p = some zone))

namespace Settling

variable {outcome : Outcome} {cleared : Round} {spills : Spills} {value : Value}
  {format : Option String}

/-- Once the value and format of a settled outcome are kept, marks leave the arrays. -/
theorem spills_of_marks
    (marks : ((cleared.withSpills spills).store p value format).Marks marked r') :
    r'.workbook.spills = spills := by
  rw [marks.workbook]
  rfl

/-- Settling an outcome and keeping its value and format leaves the sources. -/
theorem sources_of_marks
    (marks : ((cleared.withSpills spills).store p value format).Marks marked r') :
    SameSources cleared.workbook r'.workbook := by
  have stored := sameSources_store (cleared.withSpills spills) p value format
  rw [marks.workbook]
  exact ((cleared.sameSources_withSpills spills).trans stored).trans (.of_results ..)

/-- The results once the value and format of a settled outcome are kept and some formulas are
marked. -/
theorem result? (settling : r.Settling left p outcome cleared spills value format)
    (formula : r.workbook.isFormula p = true)
    (marks : ((cleared.withSpills spills).store p value format).Marks marked r') (q : Position) :
    r'.workbook.result? q = if q = p then some (.single value format) else r.workbook.result? q := by
  have formula' : (cleared.withSpills spills).workbook.isFormula p = true := by
    rw [← settling.tells.sources.isFormula] at formula
    exact formula
  rw [marks.workbook]
  show ((cleared.withSpills spills).store p value format).workbook.result? q = _
  rw [result?_store _ formula']
  split
  · rfl
  · exact settling.tells.result q

/-- A settled outcome is delivered once its value and format are kept, if every other formula that
this disturbs is marked. -/
theorem delivers (settling : r.Settling left p outcome cleared spills value format)
    (formula : r.workbook.isFormula p = true)
    (marks : ((cleared.withSpills spills).store p value format).Marks marked r')
    (others : ∀ q, q ≠ p → r.workbook.isFormula q = true →
      marked q ∨ cleared.workbook.Undisturbed r'.workbook q)
    (own : r'.workbook.compute p = cleared.workbook.compute p ∨
      ∃ q, r.workbook.Reads p q ∧ (q = p ∨ ∃ zone, zone.contains q = true ∧
        (r.workbook.spills.activeZone? p = some zone ∨ spills.activeZone? p = some zone))) :
    r.Delivers p outcome r' := by
  have kept := spills_of_marks marks
  have sources := sources_of_marks marks
  have told : ∀ q, cleared.Told q ∨ marked q → r'.Told q := fun q given => marks.told_iff.mpr given
  refine ⟨settling.tells.sources.trans sources, ?_, marks.pending.trans settling.tells.pending,
    fun q given => told q (.inl (settling.tells.told q given)), fun q other typed => ?_, ?_, ?_⟩
  · rw [marks.workbook]
    exact settling.tells.changed
  · rcases settling.tells.others q typed with given | still
    · exact .inl (told q (.inl given))
    · exact (others q other typed).imp (fun given => told q (.inr given)) still.trans
  · exact settling.settles.published sources kept (by
      rw [settling.result? formula marks, if_pos rfl])
  · rw [kept]
    rcases settling.tells.others p formula with given | still
    · exact .inl (told p (.inl given))
    · exact .inr (own.imp (fun same => same.trans still.compute) id)

/-- An outcome that is the very one published before disturbs nobody. -/
theorem delivers_of_same (settling : r.Settling left p outcome cleared spills value format)
    (grounded : r.workbook.Grounded) (formula : r.workbook.isFormula p = true)
    (marks : ((cleared.withSpills spills).store p value format).Marks marked r')
    (result : r'.workbook.result? p = r.workbook.result? p)
    (state : r'.workbook.spills.state? p = r.workbook.spills.state? p) :
    r.Delivers p outcome r' := by
  have kept := spills_of_marks marks
  have sources := sources_of_marks marks
  have grounded' := grounded.of_sources settling.tells.sources
  have results : ∀ q, r'.workbook.result? q = cleared.workbook.result? q := fun q => by
    rw [settling.tells.result]
    by_cases here : q = p
    · rw [here, result]
    · rw [settling.result? formula marks, if_neg here]
  have states : ∀ q, spills.state? q = cleared.workbook.spills.state? q := fun q => by
    by_cases here : q = p
    · rw [here, settling.state, ← state, kept]
    · exact settling.settles.state? here
  have shown : ∀ q, cleared.workbook.spills.ShowSame r'.workbook.spills q := fun q => by
    rw [kept]
    exact settling.settles.showSame_of_state settling.arranged.exclusive (states p) q
  refine settling.delivers formula marks (fun q _ _ => .inr ?_) (.inl ?_)
  · refine Workbook.undisturbed_of_showSame grounded' sources (results q) ?_ (fun u _ => results u)
      (fun u _ => shown u) fun zone b other u _ _ claimed within _ => ⟨other, ?_, within⟩
    · rw [kept, states]
    · rw [kept, Spills.activeZone?_congr (states b), claimed]
  · exact Workbook.compute_of_showSame grounded' sources (fun u _ => results u) fun u _ => shown u

/-- An outcome that is announced disturbs nobody but the readers of the formula and of the zones it
gives up or takes, and the anchors that are blocked where it gives way. -/
theorem delivers_announce (settling : r.Settling left p outcome cleared spills value format)
    (grounded : r.workbook.Grounded) (formula : r.workbook.isFormula p = true) :
    r.Delivers p outcome (((cleared.withSpills spills).store p value format).announce p
      (r.workbook.spills.activeZone? p) (spills.activeZone? p)) := by
  have marks := marks_touch_wake ((cleared.withSpills spills).store p value format) p
    (sortedPositions (p :: (((r.workbook.spills.activeZone? p).map Zone.positions).getD [] ++
      ((spills.activeZone? p).map Zone.positions).getD [])))
    ((((r.workbook.spills.activeZone? p).map Zone.positions).getD []).filter
      fun q => !(spills.activeZone? p).any (·.contains q))
  have kept := spills_of_marks marks
  have sources := sources_of_marks marks
  have grounded' := grounded.of_sources settling.tells.sources
  have sound := settling.arranged.exclusive.toSound
  have active : cleared.workbook.spills.activeZone? p = r.workbook.spills.activeZone? p :=
    Spills.activeZone?_congr settling.state
  have results : ∀ u, u ≠ p → _ = cleared.workbook.result? u := fun u other =>
    (settling.result? formula marks u).trans
      ((if_neg other).trans (settling.tells.result u).symm)
  -- What is not touched shows the same as before.
  have shown : ∀ u, (∀ zone, r.workbook.spills.activeZone? p = some zone → zone.contains u = false) →
      (∀ zone, spills.activeZone? p = some zone → zone.contains u = false) →
        cleared.workbook.spills.ShowSame spills u := fun u outside beyond =>
    settling.settles.showSame sound (fun zone claimed => outside zone (active.symm.trans claimed))
      beyond
  unfold announce
  dsimp only
  refine settling.delivers formula marks (fun q other typed => ?_) ?_
  · refine or_iff_not_imp_left.mpr fun unmarked => ?_
    obtain ⟨untouched, asleep⟩ := not_or.mp unmarked
    have unread : ∀ u, cleared.workbook.Reads q u → u ≠ p ∧
        (∀ zone, r.workbook.spills.activeZone? p = some zone → zone.contains u = false) ∧
          ∀ zone, spills.activeZone? p = some zone → zone.contains u = false := by
      intro u reads
      have apart : u ∉ sortedPositions _ := fun listed => untouched
        ⟨other, by
          rw [← settling.tells.sources.isFormula] at typed
          exact ((sameSources_store (cleared.withSpills spills) p value format).isFormula q).trans
            typed, u, listed, grounded'.current.mem_readersOf.mpr reads⟩
      rw [mem_sortedPositions, List.mem_cons, List.mem_append, Zone.mem_getD_positions,
        Zone.mem_getD_positions, not_or, not_or] at apart
      refine ⟨apart.1, fun zone claimed => ?_, fun zone claimed => ?_⟩
      · exact Bool.eq_false_iff.mpr fun inside => apart.2.1 ⟨zone, claimed, inside⟩
      · exact Bool.eq_false_iff.mpr fun inside => apart.2.2 ⟨zone, claimed, inside⟩
    refine Workbook.undisturbed_of_showSame grounded' sources (results q other) ?_
      (fun u reads => results u (unread u reads).1) (fun u reads => ?_)
      fun zone b claimed u blocked foreign held within inside => ?_
    · rw [kept, settling.settles.state? other]
    · rw [kept]
      exact shown u (unread u reads).2.1 (unread u reads).2.2
    · rw [kept]
      by_cases here : b = p
      · -- The formula has not given up a position of the blocked array.
        subst here
        by_contra gone
        push Not at gone
        refine asleep ⟨other, u, List.mem_filter.mpr ⟨?_, ?_⟩, Spills.mem_blockedAround.mpr ?_⟩
        · exact Zone.mem_getD_positions.mpr ⟨claimed, active.symm.trans held, within⟩
        · cases taken : spills.activeZone? b with
          | none => rfl
          | some zone' => simpa using gone zone' taken
        · exact ⟨zone, (settling.settles.state? other).trans blocked, inside⟩
      · exact ⟨claimed, (Spills.activeZone?_congr (settling.settles.state? here)).trans held, within⟩
  · refine or_iff_not_imp_right.mpr fun apart => ?_
    push Not at apart
    refine Workbook.compute_of_showSame grounded' sources (fun u reads => ?_) fun u reads => ?_
    · exact results u (apart u (settling.tells.sources.reads_iff.mp reads)).1
    · rw [kept]
      have clear := (apart u (settling.tells.sources.reads_iff.mp reads)).2
      refine shown u (fun zone claimed => ?_) fun zone claimed => ?_
      · exact Bool.eq_false_iff.mpr fun inside => (clear zone inside).1 claimed
      · exact Bool.eq_false_iff.mpr fun inside => (clear zone inside).2 claimed

end Settling

/-- Publishing the outcome of a formula settles it, keeps its value and format, and announces the
change unless there is none. -/
theorem publish_eq {f : Formula} {outcome : Outcome} {cleared : Round} {spills : Spills}
    {value : Value} {format : Option String} (found : r.workbook.formula? p = some f)
    (settled : r.settle p outcome = (cleared.withSpills spills, value, format)) :
    r.publish p outcome =
      if (f.value.same value && f.format == format &&
          sameState (spills.state? p) (r.workbook.spills.state? p)) = true then
        (cleared.withSpills spills).store p value format
      else ((cleared.withSpills spills).store p value format).announce p
        (r.workbook.spills.activeZone? p) (spills.activeZone? p) := by
  unfold publish
  rw [found]
  dsimp only
  rw [settled]
  rfl

/-- Publishing an outcome delivers it, as long as it does not differ from the former one in the signs
of zeros only. -/
theorem delivers_publish (grounded : r.workbook.Grounded)
    (arranged : r.workbook.Arranged (r.Exempt left)) (ended : p ∉ r.pending)
    (formula : r.workbook.isFormula p = true) (outcome : Outcome)
    (signs : r.workbook.SignsKept (r.publish p outcome).workbook p) :
    r.Delivers p outcome (r.publish p outcome) := by
  obtain ⟨cleared, spills, value, format, settling, settled⟩ :=
    settle_eq grounded arranged ended outcome
  obtain ⟨f, found⟩ := Option.isSome_iff_exists.mp formula
  rw [publish_eq found settled] at signs ⊢
  split
  · rename_i unchanged
    rw [if_pos unchanged] at signs
    rw [Bool.and_eq_true] at unchanged
    have marks := Marks.refl ((cleared.withSpills spills).store p value format)
    have result := settling.result? formula marks p
    rw [if_pos rfl] at result
    obtain ⟨kept, state⟩ := signs
      ⟨.single f.value f.format, .single value format, by simp [Workbook.result?, found], result,
        unchanged.1⟩ unchanged.2
    exact settling.delivers_of_same grounded formula marks kept state
  · exact settling.delivers_announce grounded formula

end Round

end Spreadsheet
