import Spreadsheet.Proofs.Workbook.CitedCollisions
import Spreadsheet.Proofs.Workbook.SettledRecalculations

/-!
# Citations in rounds

Every step of a round keeps citations right or tells the anchor whose citation it might spoil: giving
up a zone wakes the anchors that are blocked around it. A claim wakes nobody, but the formula that makes
it has just been evaluated. So a recalculation that ends before its rounds run out leaves every blocked
anchor with a right citation.
-/
namespace Spreadsheet

namespace Workbook

/-- Every blocked anchor is marked or rightly cites what its claim met. -/
def Citing (w : Workbook) : Prop :=
  ∀ a zone, w.spills.state? a = some (.blocked zone) → a ∈ w.dirty ∨ w.Citation a zone

end Workbook

namespace Round

variable {r r' : Round} {a p q : Position} {zone : Zone} {marked left : Position → Prop}

/-- Every blocked anchor has been told, is left over, or rightly cites what its claim met. -/
def Citing (r : Round) (left : Position → Prop) : Prop :=
  ∀ a zone, r.workbook.spills.state? a = some (.blocked zone) →
    r.Told a ∨ left a ∨ r.workbook.Citation a zone

/-- Anchors may be left over in other terms. -/
theorem Citing.mono {left' : Position → Prop} (citing : r.Citing left)
    (weaker : ∀ b, left b → left' b) : r.Citing left' := fun a zone blocked =>
  (citing a zone blocked).imp id (.imp (weaker a) id)

/-- Taking its zone from an anchor keeps citations right. -/
theorem citing_preempt (citing : r.Citing left) (owner : Position) :
    (r.preempt owner).Citing left := by
  intro a zone blocked
  have workbook := r.workbook_preempt owner
  have spills : (r.preempt owner).workbook.spills = r.workbook.spills.release owner := by
    rw [workbook]
  rw [spills, Spills.state?_release] at blocked
  split at blocked
  · contradiction
  rename_i other
  rcases citing a zone blocked with told | ended | citation
  · exact .inl (r.told_preempt owner (.inl told))
  · exact .inr (.inl ended)
  refine or_iff_not_imp_left.mpr fun untold => .inr ?_
  have spares : Workbook.Spares r.workbook (r.preempt owner).workbook a zone := by
    refine .of_release spills (by rw [workbook])
      (fun u _ => (r.sameSources_preempt owner).hasContent u) fun given u active inside => ?_
    -- An anchor that is blocked around the zone that is given up would have been woken.
    refine Bool.eq_false_iff.mpr fun within =>
      untold (r.told_preempt owner (.inr (.inr ⟨other, u, ?_, ?_⟩)))
    · exact Zone.mem_getD_positions.mpr ⟨given, active, within⟩
    · refine Spills.mem_blockedAround.mpr ⟨zone, ?_, inside⟩
      exact (Spills.state?_release _ owner a).trans ((if_neg other).trans blocked)
  refine spares.citation citation ?_
  rw [workbook]
  rfl

/-- Clearing the way for an array keeps citations right. -/
theorem citing_clearWay (citing : r.Citing left) (anchor : Position) (rows columns fuel : Nat) :
    (clearWay anchor rows columns fuel r).1.Citing left := by
  induction fuel generalizing r with
  | zero => exact citing
  | succ fuel ih =>
    unfold clearWay
    split
    · split
      · exact ih (citing_preempt citing _)
      · exact citing
    · exact citing

/-- Clearing the way for an array evaluates nothing. -/
theorem journal_clearWay (anchor : Position) (rows columns fuel : Nat) (r : Round) :
    (clearWay anchor rows columns fuel r).1.workbook.journal = r.workbook.journal := by
  induction fuel generalizing r with
  | zero => rfl
  | succ fuel ih =>
    unfold clearWay
    split
    · split
      · rw [ih, workbook_preempt]
      · rfl
    · rfl

/-! ### Publishing -/

section

variable {outcome : Outcome} {cleared : Round} {spills : Spills} {value : Value}
  {format : Option String}

/-- An array that has just been blocked cites the first occupied position. -/
theorem Settles.citation {exempt : Position → Prop}
    (settles : r.Settles p outcome spills value format)
    (exclusive : r.workbook.spills.Exclusive r.workbook.hasContent exempt)
    (blocked : spills.state? p = some (.blocked zone)) {w : Workbook}
    (same : SameSources r.workbook w) (kept : w.spills = spills)
    (result : w.result? p = some (.single value format)) : w.Citation p zone := by
  cases settles with
  | single =>
    rw [Spills.state?_release, if_pos rfl] at blocked
    contradiction
  | spilled =>
    rw [Spills.state?_claim, if_pos rfl] at blocked
    cases Option.some.inj blocked
  | @blocked values formats collision _ met =>
    rw [Spills.state?_block, if_pos rfl, Option.some.injEq, SpillState.blocked.injEq] at blocked
    subst blocked
    refine ⟨collision, _, _, result, rfl, fun q found => ?_⟩
    unfold claim at met
    obtain ⟨inside, other, taken⟩ := (Spills.inTheWay_of_checkClaim met).occupied found
    -- Nothing before the position is in the way, and the anchor has given its own zone up.
    have free := fun u => Spills.free_of_checkClaim (u := u) met found
    have active : ∀ b, b ≠ p → w.spills.activeZone? b = r.workbook.spills.activeZone? b :=
      fun b foreign => by rw [kept, Spills.activeZone?_block, if_neg foreign]
    refine ⟨inside, other, ?_, fun u within different earlier => ?_,
      fun u b claimed within different earlier foreign held covers => ?_⟩
    · rcases taken with filled | ⟨b, owned, foreign⟩
      · exact .inl (by rw [same.hasContent, filled])
      · obtain ⟨claimed, held, covers⟩ := exclusive.toSound.covered q b owned
        exact .inr ⟨b, claimed, foreign, (active b foreign).trans held, covers⟩
    · rw [same.hasContent]
      exact (free u within earlier different).1
    · obtain ⟨blank, unowned⟩ := free u within earlier different
      rw [active b foreign] at held
      rcases exclusive.owned b claimed u held covers with owned | ⟨_, filled⟩
      · rw [owned] at unowned
        simp [foreign] at unowned
      · rw [filled] at blank
        contradiction

/-- Citations stay right when a settled outcome has been published, if whoever is blocked where the
formula gives way is marked, and the formula takes a zone only when it has just been evaluated. -/
theorem Settling.citing (settling : r.Settling left p outcome cleared spills value format)
    (formula : r.workbook.isFormula p = true) (citing : r.Citing left)
    (marks : ((cleared.withSpills spills).store p value format).Marks marked r')
    (woken : ∀ a zone given u, a ≠ p → spills.state? a = some (.blocked zone) →
      r.workbook.spills.activeZone? p = some given → given.contains u = true →
        zone.contains u = true → marked a ∨
          ∃ taken, spills.activeZone? p = some taken ∧ taken.contains u = true)
    (latest : spills.activeZone? p = none ∨ ∀ a, a ≠ p → p ∈ r.workbook.evaluatedSince a) :
    r'.Citing fun b => left b ∧ b ≠ p := by
  have kept := spills_of_marks marks
  have sources := sources_of_marks marks
  intro a zone blocked
  rw [kept] at blocked
  by_cases here : a = p
  · subst here
    refine .inr (.inr (settling.settles.citation settling.arranged.exclusive blocked sources kept ?_))
    rw [settling.result? formula marks, if_pos rfl]
  obtain ⟨rows, columns, fuel, rfl⟩ := settling.way
  have before := (settling.settles.state? here).symm.trans blocked
  rcases citing_clearWay citing p rows columns fuel a zone before with told | ended | citation
  · exact .inl (marks.told_iff.mpr (.inl told))
  · exact .inr (.inl ⟨ended, here⟩)
  refine or_iff_not_imp_left.mpr fun untold => .inr ?_
  have cleared := journal_clearWay p rows columns fuel r
  have journal : r'.workbook.journal = (clearWay p rows columns fuel r).1.workbook.journal := by
    rw [marks.workbook]
    rfl
  have active : ∀ b, b ≠ p → r'.workbook.spills.activeZone? b = _ := fun b other => by
    rw [kept, Spills.activeZone?_congr (settling.settles.state? other)]
  -- Of all zones only that of the formula itself changes once the way is clear.
  have spares : Workbook.Spares (clearWay p rows columns fuel r).1.workbook r'.workbook a zone := by
    refine ⟨fun u _ => sources.hasContent u, fun b later => ?_,
      fun b claimed u _ held within inside => ?_, fun b foreign => ?_⟩
    · rwa [Workbook.evaluatedSince_congr journal]
    · by_cases actor : b = p
      · subst actor
        rw [kept]
        rw [Spills.activeZone?_congr settling.state] at held
        refine (woken a zone claimed u here blocked held within inside).resolve_left fun marked => ?_
        exact untold (marks.told_iff.mpr (.inr marked))
      · exact ⟨claimed, (active b actor).trans held, within⟩
    · by_cases actor : b = p
      · subst actor
        rw [kept, Workbook.evaluatedSince_congr (journal.trans cleared)]
        exact latest.symm.imp (fun later => later a here) .inl
      · exact .inr (.inr (active b actor))
  refine spares.citation citation ?_
  rw [settling.result? formula marks, if_neg here, settling.tells.result]

end

/-- States that are equal as values have the same zone. -/
theorem activeZone?_of_sameState {s t : Spills}
    (same : sameState (t.state? p) (s.state? p) = true) : t.activeZone? p = s.activeZone? p := by
  unfold Spills.activeZone?
  cases now : t.state? p with
  | none =>
    cases before : s.state? p with
    | none => rfl
    | some state => simp [now, before, sameState] at same
  | some state =>
    cases before : s.state? p with
    | none => simp [now, before, sameState] at same
    | some state' =>
      rw [now, before] at same
      cases state <;> cases state' <;>
        simp_all [sameState, SpillState.same, SpillState.zone?]

/-- Publishing an outcome keeps citations right, and its formula is not left over. A formula gets an
array only when it has just been evaluated. -/
theorem citing_publish (grounded : r.workbook.Grounded)
    (arranged : r.workbook.Arranged (r.Exempt left)) (ended : p ∉ r.pending)
    (citing : r.Citing left) (outcome : Outcome)
    (latest : (∃ value format, outcome = .single value format) ∨
      ∀ a, a ≠ p → p ∈ r.workbook.evaluatedSince a) :
    (r.publish p outcome).Citing fun b => left b ∧ b ≠ p := by
  cases found : r.workbook.formula? p with
  | none =>
    have idle : r.publish p outcome = r := by
      unfold publish
      rw [found]
    rw [idle]
    refine fun a zone blocked => (citing a zone blocked).imp id (.imp (fun held => ⟨held, ?_⟩) id)
    rintro rfl
    have formula := arranged.formula a (by rw [blocked]; rfl)
    rw [Workbook.isFormula, found] at formula
    contradiction
  | some f =>
    have formula : r.workbook.isFormula p = true := by
      rw [Workbook.isFormula, found]
      rfl
    obtain ⟨cleared, spills, value, format, settling, settled⟩ :=
      settle_eq grounded arranged ended outcome
    have latest' : spills.activeZone? p = none ∨ ∀ a, a ≠ p → p ∈ r.workbook.evaluatedSince a := by
      rcases latest with ⟨_, _, rfl⟩ | latest
      · cases settling.settles
        exact .inl (by rw [Spills.activeZone?_release, if_pos rfl])
      · exact .inr latest
    rw [publish_eq found settled]
    split
    · rename_i unchanged
      rw [Bool.and_eq_true] at unchanged
      refine settling.citing formula citing (Marks.refl _)
        (fun a zone given u _ _ active within _ => .inr ⟨given, ?_, within⟩) latest'
      rw [activeZone?_of_sameState unchanged.2, active]
    · refine settling.citing formula citing (marks_touch_wake _ p _ _)
        (fun a zone given u other blocked active within inside => ?_) latest'
      refine or_iff_not_imp_right.mpr fun gone => .inr ⟨other, u, List.mem_filter.mpr ⟨?_, ?_⟩, ?_⟩
      · exact Zone.mem_getD_positions.mpr ⟨given, active, within⟩
      · cases taken : spills.activeZone? p with
        | none => rfl
        | some zone' => simpa using fun covers => gone ⟨zone', taken, covers⟩
      · exact Spills.mem_blockedAround.mpr ⟨zone, blocked, inside⟩

/-! ### Turns -/

/-- The turn of a formula keeps citations right. -/
theorem citing_turn (grounded : r.workbook.Grounded)
    (arranged : r.workbook.Arranged (r.Exempt fun _ => False)) (citing : r.Citing fun _ => False)
    (p : Position) : (r.turn p).Citing fun _ => False := by
  unfold turn
  dsimp only
  split
  · have sources : SameSources r.workbook ((r.begin p).note p).workbook :=
      (r.begin p).sameSources_note p
    have latest : ∀ a, a ≠ p → ((r.begin p).note p).workbook.evaluatedSince a =
        p :: r.workbook.evaluatedSince a := fun a other => Workbook.evaluatedSince_note _ _ other
    have start : ((r.begin p).note p).Citing (· = p) := by
      intro a zone blocked
      by_cases here : a = p
      · exact .inr (.inl here)
      rcases citing a zone blocked with told | never | citation
      · exact .inl (told_begin here told)
      · exact never.elim
      · have spares : Workbook.Spares r.workbook ((r.begin p).note p).workbook a zone := by
          refine .of_spills rfl (fun _ _ => rfl) fun b later => ?_
          rw [latest a here]
          exact List.mem_cons_of_mem p later
        exact .inr (.inr (spares.citation citation rfl))
    rw [evaluate_eq]
    refine (citing_publish (grounded.of_sources sources)
      ((arranged_begin arranged p).of_sources sources rfl)
      (fun waits => (PositionSet.mem_erase.mp waits).1 rfl) start _
      (.inr fun a other => ?_)).mono fun b held => held.2 held.1
    rw [latest a other]
    exact List.mem_cons_self
  · rename_i idle
    refine fun a zone blocked => (citing a zone blocked).imp (fun told => ?_) id
    rcases told with dirty | ⟨waits, due⟩
    · exact .inl dirty
    · refine told_begin (fun here => idle ?_) (.inr ⟨waits, due⟩)
      rw [← here]
      exact Std.ExtTreeSet.contains_iff_mem.mpr due

/-- Publishing that formulas are on cycles keeps citations right, and they are not left over. -/
theorem citing_cyclic (cyclic : List Position) (grounded : r.workbook.Grounded)
    (arranged : r.workbook.Arranged (r.Exempt (· ∈ cyclic))) (ended : ∀ p ∈ cyclic, p ∉ r.pending)
    (citing : r.Citing (· ∈ cyclic)) :
    (cyclic.foldl (fun r p => r.publish p .circular) r).Citing fun _ => False := by
  induction cyclic generalizing r with
  | nil => exact citing.mono fun b none => absurd none List.not_mem_nil
  | cons p rest ih =>
    have later : ∀ b, b ∈ p :: rest ∧ b ≠ p → b ∈ rest := fun b held =>
      (List.mem_cons.mp held.1).resolve_left held.2
    refine ih (grounded.of_sources (r.sameSources_publish p .circular))
      ((arranged_publish (p := p) arranged .circular).mono fun b _ held => ?_) (fun q listed => ?_) ?_
    · rcases held with ⟨waiting | listed, other⟩
      · exact .inl waiting
      · exact .inr (later b ⟨listed, other⟩)
    · rw [pending_publish]
      exact ended q (List.mem_cons_of_mem p listed)
    · exact (citing_publish grounded arranged (ended p List.mem_cons_self) citing .circular
        (.inl ⟨_, _, rfl⟩)).mono later

end Round

namespace Workbook

variable {w : Workbook} {a : Position} {zone : Zone}

/-! ### Recalculations -/

/-- The start of a round keeps citations right. -/
theorem Citing.opening (citing : w.Citing) (grounded : w.Grounded)
    (arranged : w.Arranged (· ∈ w.dirty)) : (w.opening w.plan).Citing fun _ => False := by
  have start : Round.Citing ⟨w.unmarked, .ofList w.plan.order compare, w.due⟩
      (· ∈ w.plan.cyclic) := fun a zone blocked => by
    have formula := arranged.formula a (by rw [show w.spills.state? a = _ from blocked]; rfl)
    rcases citing a zone blocked with dirty | cited
    · rcases waits_or_cyclic formula dirty with ⟨due, waits⟩ | cyclic
      · exact .inl (.inr ⟨waits, due⟩)
      · exact .inr (.inl cyclic)
    · exact .inr (.inr cited.unmarked)
  refine Round.citing_cyclic w.plan.cyclic (grounded.of_sources w.sameSources_unmarked)
    (arranged_unmarked arranged) (fun p cyclic waits => ?_) start
  exact w.orders_plan.apart p (PositionSet.mem_ofList.mp waits) cyclic

/-- The turns of a round keep citations right. -/
theorem Citing.turns (citing : w.Citing) (grounded : w.Grounded)
    (arranged : w.Arranged (· ∈ w.dirty)) (order : List Position) :
    (order.foldl Round.turn (w.opening w.plan)).Citing fun _ => False := by
  induction order using List.reverseRecOn with
  | nil => exact citing.opening grounded arranged
  | append_singleton before p ih =>
    rw [List.foldl_append, List.foldl_cons, List.foldl_nil]
    exact Round.citing_turn (grounded.of_sources (w.sameSources_turns w.plan before))
      (Round.arranged_turns before (arranged_opening arranged)) ih p

/-- After a round every blocked anchor is marked for the next one or rightly cites what its claim
met. -/
theorem Citing.recalculateOnce (citing : w.Citing) (grounded : w.Grounded)
    (arranged : w.Arranged (· ∈ w.dirty)) : w.recalculateOnce.Citing := by
  unfold Workbook.recalculateOnce
  split
  · rename_i idle
    intro a zone blocked
    have formula := arranged.formula a (by rw [show w.spills.state? a = _ from blocked]; rfl)
    exact .inr ((citing a zone blocked).resolve_left (not_mem_dirty_of_idle idle formula)).unmarked
  · intro a zone blocked
    rcases citing.turns grounded arranged w.plan.order a zone blocked with told | never | cited
    · exact .inl (told.resolve_right fun waiting => w.not_mem_pending_round a waiting.1)
    · exact never.elim
    · exact .inr cited

/-- Within a number of rounds nothing is marked any more. -/
def EndsWithin : Nat → Workbook → Prop
  | 0, w => w.Unmarked
  | rounds + 1, w => w.Unmarked ∨ EndsWithin rounds w.recalculateOnce

/-- A recalculation ends before its rounds run out. -/
def RecalculationEnds (w : Workbook) : Prop := w.EndsWithin (w.settings.rounds + 1)

/-- Where nothing is marked no round is needed. -/
theorem Unmarked.endsWithin (unmarked : w.Unmarked) (rounds : Nat) : w.EndsWithin rounds := by
  cases rounds with
  | zero => exact unmarked
  | succ rounds => exact .inl unmarked

/-- Where nothing is marked rounds change nothing. -/
theorem Unmarked.recalculateWithin (unmarked : w.Unmarked) (rounds : Nat) :
    w.recalculateWithin rounds = w := by
  cases rounds with
  | zero =>
    obtain ⟨_, _, _, _, _, _, dirty, changed, _, _, _, _⟩ := w
    obtain ⟨rfl, rfl⟩ : dirty = ∅ ∧ changed = ∅ := unmarked
    rfl
  | succ rounds =>
    unfold Workbook.recalculateWithin
    rw [unmarked.1, unmarked.2]
    rfl

/-- Where nothing is marked every blocked anchor rightly cites what its claim met. -/
theorem Citing.citation (citing : w.Citing) (unmarked : w.Unmarked)
    (blocked : w.spills.state? a = some (.blocked zone)) : w.Citation a zone := by
  refine (citing a zone blocked).resolve_left fun dirty => ?_
  rw [unmarked.1] at dirty
  exact Std.ExtTreeSet.not_mem_empty dirty

/-- After rounds that do not run out every blocked anchor rightly cites what its claim met. -/
theorem Citing.recalculateWithin (rounds : Nat) (citing : w.Citing) (grounded : w.Grounded)
    (arranged : w.Arranged (· ∈ w.dirty)) (ends : w.EndsWithin rounds)
    (blocked : (w.recalculateWithin rounds).spills.state? a = some (.blocked zone)) :
    (w.recalculateWithin rounds).Citation a zone := by
  induction rounds generalizing w with
  | zero => exact (citing.citation ends blocked).unmarked
  | succ rounds ih =>
    unfold Workbook.recalculateWithin at blocked ⊢
    split at blocked
    · rename_i idle
      rw [if_pos idle]
      exact citing.citation (unmarked_iff.mpr idle) blocked
    · rename_i busy
      rw [if_neg busy]
      rcases ends with unmarked | rest
      · rw [unmarked.1, unmarked.2] at busy
        exact absurd rfl busy
      · exact ih (citing.recalculateOnce grounded arranged)
          (grounded.of_sources w.sameSources_recalculateOnce)
          ((arranged_recalculateOnce arranged).mono fun _ _ never => never.elim) rest blocked

end Workbook

end Spreadsheet
